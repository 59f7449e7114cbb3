import TrueFigure.Server.SeatPeriods

/-!
# The price of a seat

`live_usage` of `api/routes/read_plane.py` prices the unused seats of a year, by the unit
of the license's price; `compute_seats` takes the price as it stands. A price per month
and twelve times that price per year are the same to the first, and to the second only
where nothing is priced.
-/
namespace TrueFigure.Server

open TrueFigure.Library TrueFigure.Python

/-! ### `live_usage` -/

inductive UsageClass
  | nearZero | moderate | heavy
  deriving DecidableEq, Repr

/-- The published thresholds. -/
def usageClass (days events : ℕ) : UsageClass :=
  if days < 3 ∨ events < 5 then .nearZero
  else if 15 ≤ days ∧ 100 ≤ events then .heavy
  else .moderate

/-- How many users are near zero, moderate and heavy. -/
structure UsageSplit where
  nearZero : ℕ
  moderate : ℕ
  heavy : ℕ
  deriving DecidableEq

/-- `seats` of an answer. -/
structure LiveSeats where
  activated : ℕ
  split : Option UsageSplit
  paid : Option ℕ
  neverActivated : Option ℕ
  deriving DecidableEq

/-- `waste` of an answer. -/
structure LiveWaste where
  seats : Option ℕ
  annualUsd : Option PyNum
  priceProvenance : Option PyStr
  status : Option PyStr
  deriving DecidableEq

/-- The data of an answer of `live_usage`. -/
structure LiveUsage where
  grade : PyStr := py "measured"
  seats : LiveSeats
  waste : Option LiveWaste := none
  cohortStatus : Option PyStr := none
  code : Option PyStr := none
  deriving DecidableEq

section LiveUsage

variable (s : Db) (ls : List LicenseRow) (deploymentId : ℕ) (today : ℤ)

/-- The thirty days that end today. -/
def usageWindow : ℤ × ℤ := (today - 29, today)

def userDays : Multiset ℕ := tally (activeUserOf deploymentId (usageWindow today)) s

def userEventsOf (user : ℕ) : Sigma Row → ℕ
  | ⟨.userActivity d u day, row⟩ =>
    if d = deploymentId ∧ u = user ∧ Between (usageWindow today) day then
      (row : UserActivityRow).eventCount
    else 0
  | _ => 0

def classOf (user : ℕ) : UsageClass :=
  usageClass ((userDays s deploymentId today).count user)
    (tally (userEventsOf deploymentId today user) s)

def classCount (c : UsageClass) : ℕ :=
  ((userDays s deploymentId today).toFinset.filter fun u =>
    classOf s deploymentId today u = c).card

def usageSplit : UsageSplit where
  nearZero := classCount s deploymentId today .nearZero
  moderate := classCount s deploymentId today .moderate
  heavy := classCount s deploymentId today .heavy

/-- `12 if period_unit_type == "month" else 1`. -/
def PeriodUnit.perYear : PeriodUnit → ℕ
  | .month => 12
  | .year => 1

/-- `float(price) * never * …`, without rounding. -/
def annualUsd (price : FigureValue) (never : ℕ) (unit : PeriodUnit) : PyNum :=
  match price with
  | .number n => .float (n.micros / 10 ^ 6 * never * unit.perYear)
  | .nan => .nan

def licenseWaste (l : LicenseRow) (never : ℕ) : LiveWaste :=
  match l.pricePerSeat with
  | some price => ⟨some never, some (annualUsd price never l.periodUnit),
      some (py "license_data"), none⟩
  | none => ⟨some never, none, none, some (py "awaiting_parameters")⟩

/-- `live_usage` of a deployment that was found; cohorts below five are not split. -/
def liveUsage : LiveUsage :=
  let activated := (userDays s deploymentId today).toFinset.card
  let current := ls.find? fun l => l.deploymentId = deploymentId ∧ l.validTo = none
  if 0 < activated ∧ activated < 5 then
    { seats := ⟨activated, none, current.map LicenseRow.seatsPaid,
        current.map fun l => l.seatsPaid - activated⟩
      cohortStatus := some (py "not_disclosable")
      code := some (py "TF-READ-003") }
  else
    match current with
    | none =>
      { seats := ⟨activated, some (usageSplit s deploymentId today), none, none⟩
        waste := some ⟨none, none, none, some (py "awaiting_license_declaration")⟩ }
    | some l =>
      { seats := ⟨activated, some (usageSplit s deploymentId today), some l.seatsPaid,
          some (l.seatsPaid - activated)⟩
        waste := some (licenseWaste l (l.seatsPaid - activated)) }

/-- `annual_usd` of an answer. -/
def LiveUsage.annual (x : LiveUsage) : Option PyNum := x.waste.bind LiveWaste.annualUsd

end LiveUsage

/-! ### Products that are not rounded -/

theorem roundHalfEven_intCast (n : ℤ) : roundHalfEven (n : ℚ) = n := by
  unfold roundHalfEven
  rw [Int.fract_intCast, Int.floor_intCast, if_pos (by norm_num)]

/-- The context has room for millionths of twenty-eight digits. -/
theorem rounded_micros {k : ℤ} (h : k.natAbs < 10 ^ 28) :
    Decimal.rounded ((k : ℚ) / 10 ^ 6) = .ok (.finite ((k : ℚ) / 10 ^ 6)) := by
  by_cases hzero : (k : ℚ) / 10 ^ 6 = 0
  · rw [Decimal.rounded, if_pos hzero, hzero]
  · rw [Decimal.rounded, if_neg hzero]
    have hlog : Int.log 10 |(k : ℚ) / 10 ^ 6| < 22 := by
      refine (Int.lt_zpow_iff_log_lt (by norm_num) (abs_pos.2 hzero)).1 ?_
      have hk : |(k : ℚ)| < 10 ^ 28 := by
        rw [← Int.cast_abs, Int.abs_eq_natAbs]
        exact_mod_cast h
      rw [abs_div, abs_of_pos (by norm_num : (0 : ℚ) < 10 ^ 6), div_lt_iff₀ (by norm_num)]
      refine hk.trans_le ?_
      norm_num
    have hscaled : (k : ℚ) / 10 ^ 6 * (10 : ℚ) ^ (27 - Int.log 10 |(k : ℚ) / 10 ^ 6|) =
        ((k * 10 ^ (21 - Int.log 10 |(k : ℚ) / 10 ^ 6|).toNat : ℤ) : ℚ) := by
      generalize Int.log 10 |(k : ℚ) / 10 ^ 6| = l at hlog
      have hpow : (10 : ℚ) ^ (27 - l) = 10 ^ 6 * 10 ^ (21 - l).toNat := by
        have hnat : (10 : ℚ) ^ (21 - l).toNat = (10 : ℚ) ^ (21 - l) := by
          rw [← zpow_natCast, Int.toNat_of_nonneg (by omega)]
        rw [hnat, show 27 - l = 6 + (21 - l) by ring, zpow_add₀ (by norm_num)]
        norm_num
      rw [hpow]
      push_cast
      ring
    have hround : (roundHalfEven ((k : ℚ) / 10 ^ 6 *
        (10 : ℚ) ^ (27 - Int.log 10 |(k : ℚ) / 10 ^ 6|)) : ℚ) /
          (10 : ℚ) ^ (27 - Int.log 10 |(k : ℚ) / 10 ^ 6|) = (k : ℚ) / 10 ^ 6 := by
      rw [hscaled, roundHalfEven_intCast, ← hscaled]
      exact mul_div_cancel_right₀ _ (zpow_ne_zero _ (by norm_num))
    simp only [hround]
    rw [if_neg]
    unfold Decimal.emax
    omega

/-- A price of a column times a count of seats is exact. -/
theorem mul_seats {n : Numeric} {seats : ℕ} (hn : n.micros.natAbs < 10 ^ 14)
    (hseats : seats ≤ integerMax) : (FigureValue.number n).toDecimal.mul (.finite (seats : ℚ)) =
      .ok (.finite (n.micros * seats / 10 ^ 6)) := by
  have hexact : ((n.micros : ℚ) / 10 ^ 6) * (seats : ℚ) =
      ((n.micros * seats : ℤ) : ℚ) / 10 ^ 6 := by
    push_cast
    ring
  have hroom : (n.micros * seats : ℤ).natAbs < 10 ^ 28 := by
    rw [Int.natAbs_mul, Int.natAbs_natCast]
    have hmax : seats ≤ 10 ^ 10 := hseats.trans (by norm_num [integerMax])
    calc n.micros.natAbs * seats ≤ 10 ^ 14 * 10 ^ 10 := Nat.mul_le_mul hn.le hmax
      _ < 10 ^ 28 := by norm_num
  rw [FigureValue.toDecimal, Decimal.mul, hexact, rounded_micros hroom]
  push_cast
  rfl

/-! ### One price in two units -/

def LicenseCall.priced (c : LicenseCall) (price : PyNum) (unit : PeriodUnit) : LicenseCall :=
  { c with body := { c.body with pricePerSeat := some price, periodUnit := unit } }

/-- Both surfaces price the unused seats of a deployment the same at these licenses. -/
structure SamePricing (q : SeatQuestion) (s t : LicenseDb) : Prop where
  annual : ∀ today, (liveUsage q.rows (licenses s) q.deploymentId today).annual =
    (liveUsage q.rows (licenses t) q.deploymentId today).annual
  value : (q.figure s).map Prod.fst = (q.figure t).map Prod.fst

section Pricing

variable {q : SeatQuestion} {c : LicenseCall} {s t : LicenseDb} {n n' dep : ℕ} {bounds : ℤ × ℤ}
  {price : PyNum} {unit : PeriodUnit} {a a' : Numeric} {l l' : LicenseRow} {d : DeploymentRecord}
  {reply : LicenseReply}

theorem bindPrice_number (h : bindPrice price = .ok (.number a)) : a.micros.natAbs < 10 ^ 14 := by
  unfold bindPrice at h
  split at h
  · cases h
  · obtain ⟨m, -, h⟩ := bind_eq_ok h
    split_ifs at h with hroom
    cases h
    exact hroom

theorem current_of_priced (hs : LicensesOk s n)
    (heval : (declareLicense (c.priced price unit)).eval s n = (.ok (reply, t), n'))
    (hdep : resolveDeployment c.principal c.deploymentId c.deployments = .ok d)
    (hprice : bindPrice price = .ok (.number a)) : LicensesOk t n' ∧ ∃ l ∈ openRows t d.id,
      l.seatsPaid = c.body.seatsPaid ∧ c.body.seatsPaid ≤ integerMax ∧
      l.pricePerSeat = some (.number a) ∧ l.periodUnit = unit := by
  obtain ⟨d', day, values, hdep', -, hvalues, ht, hself, -⟩ := declareLicense_eq_ok hs heval
  obtain rfl := Except.ok.inj (hdep.symm.trans hdep')
  have hopen := (licenseValues_eq_ok hvalues n).2.2.2
  refine ⟨ht, values n, mem_openRows_iff.2 ⟨?_, hopen⟩, ?_⟩
  · rw [hself]
    exact List.mem_append_right _ (List.mem_singleton_self _)
  · unfold licenseValues at hvalues
    split_ifs at hvalues with hmax
    obtain ⟨stated, hstated, hvalues⟩ := bind_eq_ok hvalues
    obtain ⟨currency, -, hvalues⟩ := bind_eq_ok hvalues
    cases hvalues
    have hnumber : bindOptionalPrice (some price) = .ok (some (.number a)) := by
      rw [bindOptionalPrice, hprice]
      rfl
    exact ⟨rfl, not_lt.1 hmax, Except.ok.inj (hstated.symm.trans hnumber), rfl⟩

theorem amount_number (hl : l.pricePerSeat = some (.number a)) (ha : a.micros.natAbs < 10 ^ 14)
    (hseats : l.seatsPaid ≤ integerMax) : q.amount bounds l =
      .ok (some (.finite (a.micros * q.wasted bounds l / 10 ^ 6))) := by
  have hwasted : q.wasted bounds l ≤ integerMax := (Nat.sub_le _ _).trans hseats
  have hprice : seatPrice q.rt l (q.books.resolveParameterVersion q.workspaceId bounds.1).2 =
      .ok (some (FigureValue.number a).toDecimal, some (py "license_data")) := by
    simp only [seatPrice, hl]
  simp only [SeatQuestion.amount, hprice, bind, Except.bind, Option.mapM_some, mul_seats ha hwasted]
  rfl

theorem value_number (hs : LicensesOk s n) (hbounds : periodBounds q.period = .ok bounds)
    (hopen : l ∈ openRows s q.deploymentId) (hl : l.pricePerSeat = some (.number a))
    (ha : a.micros.natAbs < 10 ^ 14) (hseats : l.seatsPaid ≤ integerMax) :
    (q.figure s).map Prod.fst =
      .ok (some (.finite (a.micros * q.wasted bounds l / 10 ^ 6))) := by
  rw [SeatQuestion.figure_of_open hs hbounds hopen,
    SeatQuestion.terms_of_ok (amount_number hl ha hseats)]
  rfl

/-- What `live_usage` prices at a priced license. -/
theorem annual_number (hs : LicensesOk s n) (hopen : l ∈ openRows s dep)
    (hl : l.pricePerSeat = some (.number a)) (rows : Db) (today : ℤ) :
    (liveUsage rows (licenses s) dep today).annual =
      let activated := (userDays rows dep today).toFinset.card
      if 0 < activated ∧ activated < 5 then none
      else some (annualUsd (.number a) (l.seatsPaid - activated) l.periodUnit) := by
  unfold liveUsage LiveUsage.annual
  rw [find_current, hs.openRows_eq hopen, List.head?_cons]
  dsimp only
  split_ifs with hsmall
  · rfl
  · simp only [licenseWaste, hl, Option.bind_some]

theorem annualUsd_perYear (ha : a'.micros = 12 * a.micros) (never : ℕ) :
    annualUsd (.number a) never .month = annualUsd (.number a') never .year := by
  simp only [annualUsd, PeriodUnit.perYear, ha, PyNum.float.injEq]
  push_cast
  ring

theorem samePricing_iff {t' : LicenseDb} {n'' : ℕ} {reply' : LicenseReply}
    {price' : PyNum} (hs : LicensesOk s n) (hbounds : periodBounds q.period = .ok bounds)
    (hdep : resolveDeployment c.principal c.deploymentId c.deployments = .ok d)
    (hq : d.id = q.deploymentId) (hprice : bindPrice price = .ok (.number a))
    (hprice' : bindPrice price' = .ok (.number a')) (ha : a'.micros = 12 * a.micros)
    (hmonth : (declareLicense (c.priced price .month)).eval s n = (.ok (reply, t), n'))
    (hyear : (declareLicense (c.priced price' .year)).eval s n = (.ok (reply', t'), n'')) :
    SamePricing q t t' ↔
      a.micros = 0 ∨ c.body.seatsPaid ≤ activatedUsers q.rows q.deploymentId bounds := by
  obtain ⟨ht, l, hl, hseats, hmax, hstated, hunit⟩ := current_of_priced hs hmonth hdep hprice
  obtain ⟨ht', l', hl', hseats', -, hstated', hunit'⟩ := current_of_priced hs hyear hdep hprice'
  rw [hq] at hl hl'
  have hannual : ∀ today, (liveUsage q.rows (licenses t) q.deploymentId today).annual =
      (liveUsage q.rows (licenses t') q.deploymentId today).annual := by
    intro today
    rw [annual_number ht hl hstated, annual_number ht' hl' hstated', hseats, hseats', hunit, hunit']
    simp only [annualUsd_perYear ha]
  have hwasted : q.wasted bounds l' = q.wasted bounds l := by
    simp only [SeatQuestion.wasted, hseats, hseats']
  have hvalue : (q.figure t).map Prod.fst = (q.figure t').map Prod.fst ↔
      (a.micros : ℚ) * q.wasted bounds l / 10 ^ 6 = 12 * a.micros * q.wasted bounds l / 10 ^ 6 := by
    rw [value_number ht hbounds hl hstated (bindPrice_number hprice) (hseats ▸ hmax),
      value_number ht' hbounds hl' hstated' (bindPrice_number hprice') (hseats' ▸ hmax), hwasted, ha]
    simp
  have hzero : (a.micros : ℚ) * q.wasted bounds l / 10 ^ 6 =
      12 * a.micros * q.wasted bounds l / 10 ^ 6 ↔ a.micros = 0 ∨ q.wasted bounds l = 0 := by
    rw [div_left_inj' (by norm_num), ← sub_eq_zero]
    have hfactor : (a.micros : ℚ) * q.wasted bounds l - 12 * a.micros * q.wasted bounds l =
        -11 * (a.micros * q.wasted bounds l) := by ring
    rw [hfactor, mul_eq_zero, or_iff_right (by norm_num), mul_eq_zero]
    norm_cast
  have hnone : q.wasted bounds l = 0 ↔
      c.body.seatsPaid ≤ activatedUsers q.rows q.deploymentId bounds := by
    rw [SeatQuestion.wasted, hseats, Nat.sub_eq_zero_iff_le]
  rw [← hnone, ← hzero, ← hvalue]
  exact ⟨fun h => h.value, fun h => ⟨hannual, h⟩⟩

end Pricing

section Reachable

variable {ι : Type} [DecidableEq ι] {faults : Failure → Prop} {bounds : ℤ × ℤ} {n n' : ℕ}
  {w w' : World ι LicenseCell Failure LicenseReply Unit} {price price' : PyNum} {a a' : Numeric}
  {c : LicenseCall} {d : DeploymentRecord} {reply reply' : LicenseReply} {t t' : LicenseDb}

/-- A price per month and twelve times that price per year come to the same on both
surfaces exactly where the price is zero or no seat is unused. -/
theorem price_unit_iff (hempty : licenses w.committed = [])
    (hcalls : ∀ i, ∃ calls, w.stations i = .resting (declareLicenses calls))
    (hr : Reachable faults w w') (q : SeatQuestion)
    (hbounds : periodBounds q.period = .ok bounds)
    (hdep : resolveDeployment c.principal c.deploymentId c.deployments = .ok d)
    (hq : d.id = q.deploymentId) (hprice : bindPrice price = .ok (.number a))
    (hprice' : bindPrice price' = .ok (.number a')) (ha : a'.micros = 12 * a.micros)
    (hmonth : (declareLicense (c.priced price .month)).eval w'.committed w'.sequence =
      (.ok (reply, t), n))
    (hyear : (declareLicense (c.priced price' .year)).eval w'.committed w'.sequence =
      (.ok (reply', t'), n')) :
    SamePricing q t t' ↔
      a.micros = 0 ∨ c.body.seatsPaid ≤ activatedUsers q.rows q.deploymentId bounds :=
  samePricing_iff (outlined_of_reachable hempty hcalls hr).inv hbounds hdep hq hprice hprice' ha
    hmonth hyear

end Reachable

/-! ### Ten a month -/

/-- What a call leaves on empty tables, if it succeeds. -/
def declaredFirst (c : LicenseCall) : Option (LicenseReply × LicenseDb × ℕ) :=
  match (declareLicense c).eval ∅ 1 with
  | (.ok (reply, t), n) => some (reply, t, n)
  | _ => none

theorem eval_of_declaredFirst {c : LicenseCall} {x : LicenseReply × LicenseDb × ℕ}
    (h : declaredFirst c = some x) : (declareLicense c).eval ∅ 1 = (.ok (x.1, x.2.1), x.2.2) := by
  unfold declaredFirst at h
  split at h
  · rename_i heval
    cases h
    exact heval
  · cases h

/-- So many seats from January on. -/
def januarySeats (seats : ℕ) : LicenseCall := seatLicense seats none .year "2026-01-01"

def activeMarch : SeatQuestion :=
  { marchSeats with rows := AList.insert (RowKey.userActivity 1 7 739676) ⟨1⟩ ∅ }

/-- The one seat is used, so that its price does not matter. -/
theorem price_unit_iff_used : ∃ t t' : LicenseDb, ∃ reply reply' n n',
    (declareLicense ((januarySeats 1).priced (.float 10) .month)).eval ∅ 1 =
      (.ok (reply, t), n) ∧
    (declareLicense ((januarySeats 1).priced (.float 120) .year)).eval ∅ 1 =
      (.ok (reply', t'), n') ∧ SamePricing activeMarch t t' := by
  have hmonth : (declaredFirst ((januarySeats 1).priced (.float 10) .month)).isSome := by
    decide +kernel
  have hyear : (declaredFirst ((januarySeats 1).priced (.float 120) .year)).isSome := by
    decide +kernel
  obtain ⟨x, hx⟩ := Option.isSome_iff_exists.1 hmonth
  obtain ⟨y, hy⟩ := Option.isSome_iff_exists.1 hyear
  have hx := eval_of_declaredFirst hx
  have hy := eval_of_declaredFirst hy
  have hdep : resolveDeployment (januarySeats 1).principal (januarySeats 1).deploymentId
      (januarySeats 1).deployments = .ok copilot := by decide +kernel
  have hprice : bindPrice (.float 10) = .ok (.number ⟨10000000, by decide⟩) := by decide +kernel
  have hprice' : bindPrice (.float 120) = .ok (.number ⟨120000000, by decide⟩) := by decide +kernel
  have hactive : (januarySeats 1).body.seatsPaid ≤
      activatedUsers activeMarch.rows activeMarch.deploymentId (739676, 739706) := by decide +kernel
  have hstart : Reachable (fun _ => False) januaryCaller januaryCaller := .refl
  exact ⟨_, _, _, _, _, _, hx, hy, (price_unit_iff rfl calls_january hstart activeMarch march hdep
    rfl hprice hprice' (by decide) hx hy).2 (.inr hactive)⟩

/-- Ten unused seats at ten a month are priced at 100, and at 120 a year at 1200. -/
theorem price_unit_ten : ∃ t t' : LicenseDb, ∃ reply reply' n n',
    (declareLicense ((januarySeats 10).priced (.float 10) .month)).eval ∅ 1 =
      (.ok (reply, t), n) ∧
    (declareLicense ((januarySeats 10).priced (.float 120) .year)).eval ∅ 1 =
      (.ok (reply', t'), n') ∧
    (marchSeats.figure t).map Prod.fst = .ok (some (.finite 100)) ∧
    (marchSeats.figure t').map Prod.fst = .ok (some (.finite 1200)) ∧
    ¬ SamePricing marchSeats t t' := by
  have hmonth : (declaredFirst ((januarySeats 10).priced (.float 10) .month)).any fun x =>
      (marchSeats.figure x.2.1).map Prod.fst = .ok (some (.finite 100)) := by decide +kernel
  have hyear : (declaredFirst ((januarySeats 10).priced (.float 120) .year)).any fun x =>
      (marchSeats.figure x.2.1).map Prod.fst = .ok (some (.finite 1200)) := by decide +kernel
  obtain ⟨x, hx, hvalue⟩ := (Option.any_eq_true _ _).1 hmonth
  obtain ⟨y, hy, hvalue'⟩ := (Option.any_eq_true _ _).1 hyear
  simp only [decide_eq_true_eq] at hvalue hvalue'
  refine ⟨_, _, _, _, _, _, eval_of_declaredFirst hx, eval_of_declaredFirst hy, hvalue, hvalue',
    fun h => ?_⟩
  have hsame := h.value
  rw [hvalue, hvalue'] at hsame
  exact absurd hsame (by decide +kernel)

end TrueFigure.Server
