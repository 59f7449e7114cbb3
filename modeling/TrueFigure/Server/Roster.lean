import TrueFigure.Server.Ingest

/-!
# The roster

`upsert_roster` of `api/routes/config_plane.py`: one transaction a user, which
upserts the user and then adds its identifiers.
-/
namespace TrueFigure.Server

open TrueFigure.Library TrueFigure.Python

/-- `RosterIdentifier`. -/
structure RosterIdentifier where
  ns : PyStr
  value : PyStr

/-- `RosterUser`. -/
structure RosterUser where
  userRef : PyStr
  kind : PyStr := py "person"
  role : Option PyStr := none
  team : Option PyStr := none
  displayName : Option PyStr := none
  effectiveFrom : Option PyStr := none
  effectiveTo : Option PyStr := none
  identifiers : List RosterIdentifier := []

/-- `_KIND_TO_USER_TYPE`, cast to `user_type`. -/
def userTypeOfKind (kind : PyStr) : Except DbError UserType :=
  if kind = py "person" ∨ kind = py "user" then .ok .user
  else if kind = py "shared" then .ok .shared
  else if kind = py "service" then .ok .service
  else if kind = py "bot" then .ok .bot
  else .error .invalidText

/-- A nullable text bound to a `TEXT` parameter. -/
def optionalText : Option PyStr → Except Failure (Option PyStr)
  | none => .ok none
  | some s => (textArgument s).map some

/-- What the connection of a roster request decides: the ordinal of the day a text
stands for in a `DATE` column, and whether the entry of a new row fits a page of its
unique index. -/
structure RosterConnection where
  parseDate : PyStr → Except DbError ℤ
  indexable : RowKey → Bool

section

variable (conn : RosterConnection)

/-- A nullable text bound to a `DATE` column. -/
def dateArgument (text : Option PyStr) : Except Failure (Option ℤ) := do
  match ← optionalText text with
  | none => .ok none
  | some s => (liftDb (conn.parseDate s)).map some

/-- The values of `INSERT INTO users`: the new row and the check on its window. -/
def userValues (id : ℕ) (item : RosterUser) : Except Failure UserRow := do
  let kind ← textArgument item.kind
  let userType ← liftDb (userTypeOfKind kind)
  let _ ← textArgument item.userRef
  let displayName ← optionalText item.displayName
  let jobRole ← optionalText item.role
  let team ← optionalText item.team
  let effectiveFrom ← dateArgument conn item.effectiveFrom
  let effectiveTo ← dateArgument conn item.effectiveTo
  let row : UserRow :=
    { id := id
      userType := userType
      userStatus := .active
      displayName := displayName
      jobRole := jobRole
      team := team
      effectiveFrom := effectiveFrom
      effectiveTo := effectiveTo }
  match effectiveFrom, effectiveTo with
  | some first, some last =>
    if last < first then .error (.database .checkViolation)
    else .ok row
  | _, _ => .ok row

/-- `INSERT INTO users … ON CONFLICT DO UPDATE`: the id and the status stay. -/
def upsertUser (workspaceId id : ℕ) (item : RosterUser) (before : Option UserRow) :
    Except Failure UserRow := do
  let row ← userValues conn id item
  match before with
  | none =>
    if conn.indexable (.user workspaceId item.userRef) then .ok row
    else .error (.database .indexRowSize)
  | some old => .ok { row with id := old.id, userStatus := old.userStatus }

def keepOwner (workspaceId userId : ℕ) (ns value : PyStr) :
    Option UserIdentifierRow → Except Failure UserIdentifierRow
  | some row => .ok row
  | none =>
    if conn.indexable (.userIdentifier workspaceId ns value) then .ok ⟨userId⟩
    else .error (.database .indexRowSize)

/-- `INSERT INTO user_identifiers … ON CONFLICT DO NOTHING`: an identifier that is
there is not even locked; one that another session is inserting is waited for. -/
def insertIdentifier (workspaceId userId : ℕ) (ns value : PyStr) (next : Transaction) :
    Transaction :=
  .read fun s =>
    if (userByIdentifier s workspaceId ns value).isSome then next
    else .write (.userIdentifier workspaceId ns value) (keepOwner conn workspaceId userId ns value)
      fun _ => next

/-- The identifiers of a user, one after the other: an active identifier belongs
to one user. -/
def addIdentifiers (workspaceId userId : ℕ) : List RosterIdentifier → Transaction
  | [] => .pure .done
  | ident :: idents =>
    match textArgument ident.ns, textArgument ident.value with
    | .error e, _ => .throw e
    | _, .error e => .throw e
    | .ok ns, .ok value => .read fun s =>
      if (userByIdentifier s workspaceId ns value).any fun owner => owner ≠ userId then
        .throw (.tfError ⟨.cfg004, some (py "identifiers"),
          some (ns ++ py ":" ++ value ++ py " owned by another user")⟩)
      else insertIdentifier conn workspaceId userId ns value
        (addIdentifiers workspaceId userId idents)

def upsertRosterUser (workspaceId : ℕ) (item : RosterUser) : Transaction :=
  .fresh fun id =>
    .write (.user workspaceId item.userRef) (upsertUser conn workspaceId id item) fun row =>
      addIdentifiers conn workspaceId (row : UserRow).id item.identifiers

/-- The loop of `upsert_roster`: a `TFError` rejects one user, anything else ends
the request. -/
def upsertRosterFrom (workspaceId : ℕ) : List RosterUser → List RosterResult → Process
  | [], results => .done (.roster results)
  | item :: items, results =>
    .txn (upsertRosterUser conn workspaceId item) fun
      | .ok _ => upsertRosterFrom workspaceId items (results ++ [⟨item.userRef, none⟩])
      | .error (.tfError err) =>
        upsertRosterFrom workspaceId items
          (results ++ [⟨item.userRef, some err.toErrorObject⟩])
      | .error e => .done (.raised e)

def upsertRoster (workspaceId : ℕ) (users : List RosterUser) : Process :=
  upsertRosterFrom conn workspaceId users []

end

end TrueFigure.Server
