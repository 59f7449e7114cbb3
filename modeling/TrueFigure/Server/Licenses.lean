import TrueFigure.Library.Outlines
import TrueFigure.Server.Deployments
import TrueFigure.Server.Figures

/-!
# Declaring licenses

`declare_license` of `api/routes/config_plane.py`: one transaction that closes the
current row of `deployment_licenses` at the new window's start and inserts the next,
under the check of a window's ends and the unique index of the open rows.
-/
namespace TrueFigure.Server

open TrueFigure.Library TrueFigure.Python

/-- The keys of `deployment_licenses`, of `uq_deployment_licenses_current` and of
`deployment_license_identifiers`. -/
inductive LicenseKey
  | license (id : ℕ)
  | current (deploymentId : ℕ)
  | identifier (licenseId : ℕ) (licensedIdentifier : String)
  deriving DecidableEq

/-- A license, the license an index entry was made for last, or a key alone. -/
@[reducible] def LicenseCell : LicenseKey → Type
  | .license _ => LicenseRow
  | .current _ => ℕ
  | .identifier .. => Unit

abbrev LicenseDb := Store LicenseCell

/-- A request body, with its period unit parsed. -/
structure LicenseDeclare where
  seatsPaid : ℕ
  pricePerSeat : Option PyNum
  currency : String
  periodUnit : PeriodUnit
  validFrom : String
  licensedUserRefs : List String

/-- A request with what its transaction finds: the deployments, and the day the
database makes of a text. -/
structure LicenseCall where
  principal : Principal
  deploymentId : String
  body : LicenseDeclare
  deployments : List DeploymentRecord
  date : String → Option ℤ

/-- The data of a 200 answer. -/
structure LicenseReply where
  licenseId : String
  deploymentId : String
  seatsPaid : ℕ
  deriving DecidableEq

abbrev LicenseTxn := Txn LicenseCell Failure LicenseReply

/-! ### The tables -/

/-- The rows of `deployment_licenses`. -/
def licenses (s : LicenseDb) : List LicenseRow :=
  s.entries.filterMap fun
    | ⟨.license _, row⟩ => some row
    | _ => none

/-- The rows of a deployment in the order they were declared. -/
def history (s : LicenseDb) (deploymentId : ℕ) : List LicenseRow :=
  ((licenses s).filter fun row => row.deploymentId = deploymentId).insertionSort
    fun row row' => row.id ≤ row'.id

/-- The row is the current one of a deployment. -/
def LicenseRow.Open (deploymentId : ℕ) (row : LicenseRow) : Prop :=
  row.deploymentId = deploymentId ∧ row.validTo = none

instance (deploymentId : ℕ) : DecidablePred (LicenseRow.Open deploymentId) :=
  fun _ => inferInstanceAs (Decidable (_ ∧ _))

def openRows (s : LicenseDb) (deploymentId : ℕ) : List LicenseRow :=
  (licenses s).filter fun row => row.Open deploymentId

/-! ### Parameters -/

/-- A `DATE` parameter. -/
def bindDate (date : String → Option ℤ) (text : String) : Except Failure ℤ := do
  let text ← bindText text
  match date text with
  | some day => .ok day
  | none => .error (.database .invalidText)

/-- A `CHAR(3)` parameter: filled with blanks, and nothing but blanks is cut off. -/
def bindCurrency (text : String) : Except Failure String := do
  let text ← bindText text
  if (text.toList.drop 3).all fun c => c = ' ' then
    .ok (String.ofList ((text.toList ++ [' ', ' ', ' ']).take 3))
  else .error (.database .invalidText)

/-- A parameter of a `NUMERIC(14,6)` column. -/
def bindPrice : PyNum → Except Failure FigureValue
  | .nan => .ok .nan
  | price => do
    let n ← liftDb (Numeric.ofNum price)
    if n.micros.natAbs < 10 ^ 14 then .ok (.number n) else .error (.database .numericOverflow)

def bindOptionalPrice : Option PyNum → Except Failure (Option FigureValue)
  | none => .ok none
  | some price => (bindPrice price).map some

/-- The values of `INSERT INTO deployment_licenses`; the row's number is drawn as it is
inserted. -/
def licenseValues (body : LicenseDeclare) (deploymentId : ℕ) (day : ℤ) :
    Except Failure (ℕ → LicenseRow) := do
  if integerMax < body.seatsPaid then .error (.database .integerOverflow)
  else
    let price ← bindOptionalPrice body.pricePerSeat
    let currency ← bindCurrency body.currency
    .ok fun id =>
      { id := id
        deploymentId := deploymentId
        periodUnit := body.periodUnit
        seatsPaid := body.seatsPaid
        pricePerSeat := price
        currency := currency
        validFrom := day
        validTo := none }

/-! ### `declare_license` -/

/-- A row is closed if it is still open once it is locked, under
`ck_deployment_licenses_validity`; no statement deletes a row that was seen. -/
def closeRow (deploymentId : ℕ) (day : ℤ) (seen : LicenseRow) (before : Option LicenseRow) :
    Except Failure LicenseRow :=
  let row := before.getD seen
  if row.Open deploymentId then
    if day < row.validFrom then .error (.database .checkViolation)
    else .ok { row with validTo := some day }
  else .ok row

/-- The update of the rows its snapshot shows open. -/
def closeRows (deploymentId : ℕ) (day : ℤ) : List LicenseRow → LicenseTxn → LicenseTxn
  | [], next => next
  | row :: rows, next =>
    .write (.license row.id) (closeRow deploymentId day row) fun _ =>
      closeRows deploymentId day rows next

/-- A row under a number nothing else has. -/
def newRow (row : LicenseRow) : Option LicenseRow → Except Failure LicenseRow
  | none => .ok row
  | some _ => .error (.database .uniqueViolation)

/-- The row is inserted where no open row of its deployment is visible. A row that
another transaction is closing counts as open, since that one inserts an open row when
it succeeds. -/
def insertChecked (row : LicenseRow) (next : LicenseTxn) : LicenseTxn :=
  .read fun s =>
    if openRows s row.deploymentId = [] then
      .write (.license row.id) (newRow row) fun _ => next
    else .throw (.database .uniqueViolation)

/-- The insert of an open row: it waits while another entry of its deployment is being
made. -/
def insertLicense (row : LicenseRow) (next : LicenseTxn) : LicenseTxn :=
  .write (.current row.deploymentId) (fun _ => .ok row.id) fun _ => insertChecked row next

/-- `ON CONFLICT DO NOTHING`, one identifier at a time. -/
def insertIdentifiers (licenseId : ℕ) : List String → LicenseTxn → LicenseTxn
  | [], next => next
  | ref :: refs, next =>
    match bindText ref with
    | .error e => .throw e
    | .ok ref =>
      .write (.identifier licenseId ref) (fun _ => .ok ()) fun _ =>
        insertIdentifiers licenseId refs next

/-- `refs.encode_id("license", id)`. -/
def licenseRef (id : ℕ) : String := "ls_" ++ toString id

/-- The inserts of `declare_license`. -/
def enterLicense (c : LicenseCall) (deploymentId : ℕ) (day : ℤ) : LicenseTxn :=
  match licenseValues c.body deploymentId day with
  | .error e => .throw e
  | .ok row =>
    .fresh fun id =>
      insertLicense (row id) (insertIdentifiers id c.body.licensedUserRefs
        (.pure ⟨licenseRef id, c.deploymentId, c.body.seatsPaid⟩))

def declareLicense (c : LicenseCall) : LicenseTxn :=
  match resolveDeployment c.principal c.deploymentId c.deployments with
  | .error e => .throw e
  | .ok dep =>
    match bindDate c.date c.body.validFrom with
    | .error e => .throw e
    | .ok day =>
      .read fun s => closeRows dep.id day (openRows s dep.id) (enterLicense c dep.id day)

/-- One call after another, whatever each answers. -/
def declareLicenses : List LicenseCall → Proc LicenseCell Failure LicenseReply Unit
  | [] => .done ()
  | c :: cs => .txn (declareLicense c) fun _ => declareLicenses cs

/-! ### What the tables hold -/

variable {s t : LicenseDb} {dep : ℕ} {row : LicenseRow}

theorem mem_licenses : row ∈ licenses s ↔ ∃ id, s.lookup (LicenseKey.license id) = some row := by
  unfold licenses
  rw [List.mem_filterMap]
  constructor
  · rintro ⟨⟨k, cell⟩, hmem, hrow⟩
    cases k with
    | license id =>
      cases hrow
      exact ⟨id, AList.mem_lookup_iff.2 hmem⟩
    | current d => cases hrow
    | identifier id ref => cases hrow
  · rintro ⟨id, hid⟩
    exact ⟨⟨.license id, row⟩, AList.mem_lookup_iff.1 hid, rfl⟩

theorem mem_history : row ∈ history s dep ↔
    (∃ id, s.lookup (LicenseKey.license id) = some row) ∧ row.deploymentId = dep := by
  rw [history, List.mem_insertionSort, List.mem_filter, mem_licenses, decide_eq_true_eq]

theorem mem_openRows : row ∈ openRows s dep ↔
    (∃ id, s.lookup (LicenseKey.license id) = some row) ∧ row.Open dep := by
  rw [openRows, List.mem_filter, mem_licenses, decide_eq_true_eq]

end TrueFigure.Server
