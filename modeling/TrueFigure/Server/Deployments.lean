import TrueFigure.Server.Ingest
import TrueFigure.Server.Webhooks

/-!
# Registering deployments

`register_deployment` of `api/routes/config_plane.py`: one transaction that looks
the external reference up, inserts the deployment and links its service accounts.
Whatever it raises is answered as an error and leaves the tables as they were.
-/
namespace TrueFigure.Server

open TrueFigure.Python

def DeploymentType.wire : DeploymentType → String
  | .saasTool => "saas_tool"
  | .inHouse => "in_house"
  | .agent => "agent"
  | .decisionAi => "decision_ai"

def DeploymentType.ofWire? (s : String) : Option DeploymentType :=
  [.saasTool, .inHouse, .agent, .decisionAi].find? fun t => t.wire = s

inductive DeploymentMode
  | planned | measured
  deriving DecidableEq, Repr

/-- A row of `deployments`; instants are microseconds since 1970. -/
structure DeploymentRecord where
  id : ℕ
  workspaceId : ℕ
  deploymentType : DeploymentType
  deploymentMode : DeploymentMode
  deploymentStatus : DeploymentStatus
  deploymentRef : String
  name : String
  externalRef : Option String
  plannedRolloutAt : Option ℤ
  deriving DecidableEq

/-- A roster user of type `service`. -/
structure ServiceAccount where
  workspaceId : ℕ
  userRef : String
  userId : ℕ
  deriving DecidableEq

/-- A row of `deployment_service_users`. -/
structure ServiceUserLink where
  deploymentId : ℕ
  userId : ℕ
  deriving DecidableEq

/-- The tables `register_deployment` reads and writes, and the sequence of the
deployments. -/
structure DeploymentTables where
  deployments : List DeploymentRecord
  serviceAccounts : List ServiceAccount
  links : List ServiceUserLink
  nextId : ℕ
  deriving DecidableEq

/-- A request body. -/
structure DeploymentCreate where
  name : String
  type : String
  externalRef : Option String
  plannedRolloutAt : Option String
  serviceUserRefs : List String

/-- The data of a 201 answer. -/
structure DeploymentReply where
  deploymentId : String
  type : DeploymentType
  mode : DeploymentMode
  deriving DecidableEq

/-- `if text:`. -/
def given (text : Option String) : Option String := text.filter fun s => s ≠ ""

/-- What `parse_body` makes of the type. -/
def parseType (type : String) : Except Failure DeploymentType :=
  match DeploymentType.ofWire? type with
  | some t => .ok t
  | none => .error (.tfError ⟨.cfg007, some (py "type"),
      some (py "String should match pattern '^(saas_tool|in_house|agent|decision_ai)$'")⟩)

/-- A `TIMESTAMPTZ` parameter, by the database's reading of such texts. -/
def bindTimestamp (timestamptz : String → Option ℤ) :
    Option String → Except Failure (Option ℤ)
  | none => .ok none
  | some text => do
    let text ← bindText text
    match timestamptz text with
    | some instant => .ok (some instant)
    | none => .error (.database .invalidText)

def bindOptional : Option String → Except Failure (Option String)
  | none => .ok none
  | some text => (bindText text).map some

namespace DeploymentTables

/-- The deployment of this external reference. -/
def registered (t : DeploymentTables) (workspaceId : ℕ) (externalRef : String) :
    Option DeploymentRecord :=
  t.deployments.find? fun d => d.workspaceId = workspaceId ∧ d.externalRef = some externalRef

/-- `INSERT INTO deployments`, under its two unique constraints. -/
def insertDeployment (t : DeploymentTables) (d : DeploymentRecord) :
    Except Failure DeploymentTables :=
  if t.deployments.any fun e => e.deploymentRef = d.deploymentRef ∨
      (e.workspaceId = d.workspaceId ∧ d.externalRef.isSome ∧ e.externalRef = d.externalRef) then
    .error (.database .uniqueViolation)
  else .ok { t with deployments := t.deployments ++ [d], nextId := t.nextId + 1 }

def linkServiceUsers (workspaceId deploymentId : ℕ) :
    List String → DeploymentTables → Except Failure DeploymentTables
  | [], t => .ok t
  | sref :: srefs, t => do
    let sref ← bindText sref
    match t.serviceAccounts.find? fun u => u.workspaceId = workspaceId ∧ u.userRef = sref with
    | none => .error (.tfError ⟨.cfg007, some (py "service_user_refs"),
        some (py (sref ++ " is not a roster service account"))⟩)
    | some u =>
      let link : ServiceUserLink := ⟨deploymentId, u.userId⟩
      if t.links.contains link then .error (.database .uniqueViolation)
      else linkServiceUsers workspaceId deploymentId srefs { t with links := t.links ++ [link] }

end DeploymentTables

/-- `_resolve_deployment` of the configuration plane. -/
def resolveDeployment (principal : Principal) (wireId : String) (ds : List DeploymentRecord) :
    Except Failure DeploymentRecord := do
  let ref ← bindText wireId
  match ds.find? fun d => d.deploymentRef = ref ∧ d.workspaceId = principal.workspaceId with
  | none => .error (.tfError ⟨.evt002, none, some (py ("unknown deployment " ++ wireId))⟩)
  | some d =>
    if principal.mayTouch d.id then .ok d
    else .error (.tfError ⟨.auth002, none,
      some (py ("key not scoped to deployment " ++ toString d.id))⟩)

/-- The refusal of an external reference that is taken. -/
def alreadyApplied (d : DeploymentRecord) : TFError :=
  ⟨.cfg003, some (py "external_ref"), some (py ("already applied: " ++ d.deploymentRef))⟩

/-- The transaction of `register_deployment`; `ref` is the reference it draws. -/
def registerDeployment (timestamptz : String → Option ℤ) (workspaceId : ℕ)
    (body : DeploymentCreate) (ref : String) (t : DeploymentTables) :
    Except Failure (DeploymentReply × DeploymentTables) := do
  let type ← parseType body.type
  let mode := if (given body.plannedRolloutAt).isSome then .planned else .measured
  let wanted ← bindOptional (given body.externalRef)
  match wanted.bind (t.registered workspaceId) with
  | some d => .error (.tfError (alreadyApplied d))
  | none => do
    let name ← bindText body.name
    let externalRef ← bindOptional body.externalRef
    let plannedRolloutAt ← bindTimestamp timestamptz body.plannedRolloutAt
    let d : DeploymentRecord :=
      { id := t.nextId
        workspaceId := workspaceId
        deploymentType := type
        deploymentMode := mode
        deploymentStatus := .active
        deploymentRef := ref
        name := name
        externalRef := externalRef
        plannedRolloutAt := plannedRolloutAt }
    let t ← t.insertDeployment d
    let t ← t.linkServiceUsers workspaceId d.id body.serviceUserRefs
    .ok (⟨ref, type, mode⟩, t)

/-- An answer of the server: its status, and its data or its errors. -/
structure Answer (α : Type) where
  status : ℕ
  data : Option α
  errors : List ErrorObject
  deriving DecidableEq

/-- The handlers of the application: a `TFError` under its own status, anything
else as an internal error. -/
def Failure.answer {α : Type} : Failure → Answer α
  | .tfError err => ⟨err.code.http, none, [err.toErrorObject]⟩
  | _ => ⟨ErrorCode.srv001.http, none,
      [(⟨.srv001, none, some (py "internal error")⟩ : TFError).toErrorObject]⟩

/-- `POST /v1/deployments`: the answer, and the tables once it is committed. -/
def postDeployment (timestamptz : String → Option ℤ) (workspaceId : ℕ) (body : DeploymentCreate)
    (ref : String) (t : DeploymentTables) : Answer DeploymentReply × DeploymentTables :=
  match registerDeployment timestamptz workspaceId body ref t with
  | .ok (reply, t') => (⟨201, some reply, []⟩, t')
  | .error e => (e.answer, t)

/-! ### What a registration leaves -/

variable {timestamptz : String → Option ℤ} {ws : ℕ} {body : DeploymentCreate} {ref : String}
  {t t' : DeploymentTables} {reply : DeploymentReply} {externalRef : String}

theorem bindText_eq_ok {s s' : String} (h : bindText s = .ok s') : s' = s := by
  unfold bindText at h
  split_ifs at h
  exact (Except.ok.inj h).symm

theorem insertDeployment_ok {d : DeploymentRecord} (h : t.insertDeployment d = .ok t') :
    t' = { t with deployments := t.deployments ++ [d], nextId := t.nextId + 1 } := by
  unfold DeploymentTables.insertDeployment at h
  split_ifs at h
  exact (Except.ok.inj h).symm

theorem linkServiceUsers_deployments {id : ℕ} {srefs : List String}
    (h : t.linkServiceUsers ws id srefs = .ok t') : t'.deployments = t.deployments := by
  induction srefs generalizing t with
  | nil =>
    cases h
    rfl
  | cons sref srefs ih =>
    obtain ⟨sref', -, h⟩ := bind_eq_ok h
    split at h
    · cases h
    · dsimp only at h
      split_ifs at h
      have hrest := ih h
      exact hrest

theorem registered_eq_some {d : DeploymentRecord} (h : t.registered ws externalRef = some d) :
    d ∈ t.deployments ∧ d.workspaceId = ws ∧ d.externalRef = some externalRef := by
  have hfound := List.find?_some h
  simp only [decide_eq_true_eq] at hfound
  exact ⟨List.mem_of_find?_eq_some h, hfound⟩

theorem registered_eq_none (h : t.registered ws externalRef = none) :
    ∀ d ∈ t.deployments, ¬ (d.workspaceId = ws ∧ d.externalRef = some externalRef) := by
  simpa [DeploymentTables.registered, List.find?_eq_none] using h

/-- A registration under an external reference that was free leaves the one
deployment that has it. -/
theorem registerDeployment_ok (hbody : body.externalRef = some externalRef)
    (hgiven : externalRef ≠ "")
    (h : registerDeployment timestamptz ws body ref t = .ok (reply, t')) :
    t.registered ws externalRef = none ∧ reply.deploymentId = ref ∧
      ∃ d, t'.deployments = t.deployments ++ [d] ∧ d.workspaceId = ws ∧
        d.externalRef = some externalRef ∧ d.deploymentRef = ref := by
  obtain ⟨type, -, h⟩ := bind_eq_ok h
  obtain ⟨wanted, hwanted, h⟩ := bind_eq_ok h
  have hbound : bindText externalRef = .ok externalRef ∧ wanted = some externalRef := by
    have hgiven' : given body.externalRef = some externalRef := by
      simp [given, hbody, hgiven]
    rw [hgiven', bindOptional] at hwanted
    cases hbind : bindText externalRef with
    | error e => simp [hbind, Except.map] at hwanted
    | ok bound =>
      obtain rfl := bindText_eq_ok hbind
      simp only [hbind, Except.map, Except.ok.injEq] at hwanted
      exact ⟨rfl, hwanted.symm⟩
  obtain ⟨hbind, rfl⟩ := hbound
  simp only [Option.bind_some] at h
  split at h
  · cases h
  · rename_i hnone
    obtain ⟨name, -, h⟩ := bind_eq_ok h
    obtain ⟨stored, hstored, h⟩ := bind_eq_ok h
    obtain ⟨plannedRolloutAt, -, h⟩ := bind_eq_ok h
    obtain ⟨inserted, hinserted, h⟩ := bind_eq_ok h
    obtain ⟨linked, hlinked, h⟩ := bind_eq_ok h
    obtain ⟨rfl, rfl⟩ := Prod.mk.inj (Except.ok.inj h)
    have hexternal : stored = some externalRef := by
      rw [hbody, bindOptional, hbind] at hstored
      exact (Except.ok.inj hstored).symm
    obtain rfl := insertDeployment_ok hinserted
    exact ⟨hnone, rfl, _, linkServiceUsers_deployments hlinked, rfl, hexternal, rfl⟩

/-- Under an external reference that is taken nothing is registered. -/
theorem registerDeployment_taken (hbody : body.externalRef = some externalRef)
    (hgiven : externalRef ≠ "") {d : DeploymentRecord}
    (htaken : t.registered ws externalRef = some d) :
    ∃ err, registerDeployment timestamptz ws body ref t = .error err := by
  cases h : registerDeployment timestamptz ws body ref t with
  | error err => exact ⟨err, rfl⟩
  | ok result =>
    obtain ⟨reply, t'⟩ := result
    obtain ⟨hnone, -⟩ := registerDeployment_ok hbody hgiven h
    rw [hnone] at htaken
    cases htaken

end TrueFigure.Server
