import TrueFigure.Server.CanonicalTs
import TrueFigure.Server.DeploymentUpdates

/-!
# API keys

`api/application_services/auth.py`, which turns an `Authorization` header into a
principal, and the commands of `ops/opsctl.py` that issue keys, revoke them and
grant them deployments. A command is one transaction; one that ends in
`SystemExit` or a database error leaves the tables as they were.
-/
namespace TrueFigure.Server

open TrueFigure.Python

/-- `ck_api_keys_revoked_pairing`: a key has a `revoked_dt` just when it is revoked. -/
inductive KeyStatus
  | active
  | revoked (revokedDt : ℕ)
  deriving DecidableEq

/-- What a key says about its holder. -/
structure KeyIdentity where
  apiKeyId : ℕ
  apiKeyRef : String
  workspaceId : ℕ
  ownerUserId : ℕ
  mode : KeyMode
  scope : KeyScope
  roles : List String
  deriving DecidableEq

/-- A row of `api_keys`. -/
structure ApiKeyRow extends KeyIdentity where
  apiKeyStatus : KeyStatus
  secretHash : PyStr
  deriving DecidableEq

/-- A row of `api_key_deployments`. -/
structure KeyGrant where
  workspaceId : ℕ
  apiKeyId : ℕ
  deploymentId : ℕ
  deriving DecidableEq

structure NamedWorkspace where
  id : ℕ
  workspaceRef : String
  deriving DecidableEq

/-- A row of `users`, as far as the owner of a key is looked up. -/
structure MemberRow where
  id : ℕ
  workspaceId : Option ℕ
  userRef : String
  deriving DecidableEq

/-- The tables of the key commands, those of the deployments among them, and the
sequence of the keys. -/
structure KeyTables where
  workspaces : List NamedWorkspace
  members : List MemberRow
  config : DeploymentTables
  keys : List ApiKeyRow
  grants : List KeyGrant
  nextKey : ℕ

/-- How a command of `opsctl` fails. -/
inductive OpsFailure
  | systemExit (message : String)
  | database (e : DbError)
  deriving DecidableEq

/-- `_one`; `clause` is the statement after its `WHERE`. -/
def one {α : Type} (clause : String) : Option α → Except OpsFailure α
  | some row => .ok row
  | none => .error (.systemExit ("not found: " ++ clause))

/-- What `secrets.token_hex(16)` draws. -/
structure Secret where
  text : PyStr
  hex : ∀ c ∈ text, ∃ n, c = hexDigit n
  length_eq : text.length = 32

def modeToKeyPrefix : KeyMode → PyStr
  | .production => py "tf_live_"
  | .test => py "tf_test_"

def keyPrefixToMode (key : PyStr) : Option KeyMode :=
  [KeyMode.production, KeyMode.test].find? fun mode => (modeToKeyPrefix mode).isPrefixOf key

/-! ### The commands -/

/-- The arguments of `key issue`. -/
structure KeyIssue where
  workspaceRef : String
  ownerUserRef : String
  mode : KeyMode
  scope : KeyScope
  roles : List String
  deploymentRefs : List String

/-- The text `key issue` prints once. -/
def KeyIssue.presented (a : KeyIssue) (secret : Secret) : PyStr :=
  modeToKeyPrefix a.mode ++ secret.text

namespace KeyTables

def workspaceOf (t : KeyTables) (ref : String) : Option NamedWorkspace :=
  t.workspaces.find? fun w => w.workspaceRef = ref

def memberOf (t : KeyTables) (workspaceId : ℕ) (ref : String) : Option MemberRow :=
  t.members.find? fun u => u.workspaceId = some workspaceId ∧ u.userRef = ref

def deploymentOf (t : KeyTables) (ref : String) : Option DeploymentRecord :=
  t.config.deployments.find? fun d => d.deploymentRef = ref

def keyOf (t : KeyTables) (ref : String) : Option ApiKeyRow :=
  t.keys.find? fun k => k.apiKeyRef = ref

def granted (t : KeyTables) (g : KeyGrant) : Bool :=
  t.grants.any fun h => h.apiKeyId = g.apiKeyId ∧ h.deploymentId = g.deploymentId

/-- `INSERT INTO api_keys`, under its unique constraint. -/
def insertKey (t : KeyTables) (k : ApiKeyRow) : Except OpsFailure KeyTables :=
  if t.keys.any fun e => e.apiKeyRef = k.apiKeyRef then .error (.database .uniqueViolation)
  else .ok { t with keys := t.keys ++ [k], nextKey := t.nextKey + 1 }

/-- `INSERT INTO api_key_deployments`, under its unique constraint and its two
composite foreign keys. -/
def insertGrant (t : KeyTables) (g : KeyGrant) : Except OpsFailure KeyTables :=
  if t.granted g then .error (.database .uniqueViolation)
  else if t.keys.any (fun k => k.apiKeyId = g.apiKeyId ∧ k.workspaceId = g.workspaceId) &&
      t.config.deployments.any (fun d => d.id = g.deploymentId ∧ d.workspaceId = g.workspaceId) then
    .ok { t with grants := t.grants ++ [g] }
  else .error (.database .foreignKeyViolation)

/-- The deployments of `key issue` are granted one by one, under the workspace
of the deployment. -/
def grantEach (keyId : ℕ) : List String → KeyTables → Except OpsFailure KeyTables
  | [], t => .ok t
  | ref :: refs, t => do
    let d ← one "deployment_ref=%s" (t.deploymentOf ref)
    let t ← t.insertGrant ⟨d.workspaceId, keyId, d.id⟩
    grantEach keyId refs t

end KeyTables

/-- `key_issue`; `secret` and `ref` are what it draws. -/
def keyIssue (hashKey : PyStr → PyStr) (a : KeyIssue) (secret : Secret) (ref : String)
    (t : KeyTables) : Except OpsFailure (ApiKeyRow × KeyTables) := do
  let ws ← one "workspace_ref=%s" (t.workspaceOf a.workspaceRef)
  let owner ← one "workspace_id=%s AND user_ref=%s" (t.memberOf ws.id a.ownerUserRef)
  let row : ApiKeyRow :=
    { apiKeyId := t.nextKey
      apiKeyRef := ref
      workspaceId := ws.id
      ownerUserId := owner.id
      mode := a.mode
      scope := a.scope
      roles := a.roles
      apiKeyStatus := .active
      secretHash := hashKey (a.presented secret) }
  let t ← t.insertKey row
  let t ← t.grantEach row.apiKeyId a.deploymentRefs
  .ok (row, t)

/-- The row `key_revoke` updates. -/
def ApiKeyRow.revocable (ref : String) (k : ApiKeyRow) : Bool :=
  k.apiKeyRef = ref ∧ k.apiKeyStatus = .active

def ApiKeyRow.revoke (ref : String) (now : ℕ) (k : ApiKeyRow) : ApiKeyRow :=
  if k.revocable ref then { k with apiKeyStatus := .revoked now } else k

def keyRevoke (ref : String) (now : ℕ) (t : KeyTables) : Except OpsFailure KeyTables :=
  if t.keys.any (ApiKeyRow.revocable ref) then
    .ok { t with keys := t.keys.map (ApiKeyRow.revoke ref now) }
  else .error (.systemExit ("active key " ++ ref ++ " not found"))

/-- `grant_add`, with the deployment it grants. -/
def grantAdd (keyRef deploymentRef : String) (t : KeyTables) :
    Except OpsFailure (ℕ × KeyTables) := do
  let k ← one "api_key_ref=%s" (t.keyOf keyRef)
  let d ← one "deployment_ref=%s" (t.deploymentOf deploymentRef)
  if d.workspaceId ≠ k.workspaceId then .error (.systemExit "cross-tenant grant refused")
  else
    let g : KeyGrant := ⟨k.workspaceId, k.apiKeyId, d.id⟩
    -- ON CONFLICT (api_key_id, deployment_id) DO NOTHING
    if t.granted g then .ok (d.id, t)
    else do
      let t ← t.insertGrant g
      .ok (d.id, t)

/-! ### Requests -/

/-- `Settings.environment`. -/
inductive ServerEnvironment
  | production | sandbox
  deriving DecidableEq, Repr

def ServerEnvironment.expectedMode : ServerEnvironment → KeyMode
  | .production => .production
  | .sandbox => .test

def ServerEnvironment.wire : ServerEnvironment → String
  | .production => "production"
  | .sandbox => "sandbox"

def KeyMode.wire : KeyMode → String
  | .production => "production"
  | .test => "test"

/-- The codes of `auth.py`. -/
inductive AuthCode
  | auth001 | auth002 | auth003
  deriving DecidableEq, Repr

def AuthCode.definition : AuthCode → CodeDefinition
  | .auth001 => ⟨py "TF-AUTH-001", py "INVALID_API_KEY", false,
      py "API key missing, malformed, or revoked."⟩
  | .auth002 => ErrorCode.auth002.definition
  | .auth003 => ⟨py "TF-AUTH-003", py "TEST_KEY_IN_PRODUCTION", false,
      py "Test-scoped key used against production mode."⟩

def AuthCode.http : AuthCode → ℕ
  | .auth001 => 401
  | .auth002 => 403
  | .auth003 => 403

/-- A `TFError` of `auth.py`. -/
structure AuthError where
  code : AuthCode
  detail : String
  deriving DecidableEq

/-- The principal of a request, with what only the key plane reads. -/
structure KeyPrincipal extends KeyIdentity where
  grantedDeploymentIds : List ℕ
  deriving DecidableEq

def KeyPrincipal.principal (p : KeyPrincipal) : Principal :=
  ⟨p.workspaceId, p.mode, p.scope, p.grantedDeploymentIds⟩

def KeyPrincipal.requireRole (p : KeyPrincipal) (role : String) : Except AuthError Unit :=
  if role ∈ p.roles then .ok () else .error ⟨.auth002, "key lacks required role '" ++ role ++ "'"⟩

/-- `str.lower` on the Latin-1 characters a header holds. -/
def lowerLatin1 (c : CodePoint) : CodePoint :=
  if (65 ≤ c.val ∧ c.val ≤ 90) ∨ (192 ≤ c.val ∧ c.val ≤ 222 ∧ c.val ≠ 215) then
    Fin.ofNat 0x110000 (c.val + 32)
  else c

def extractBearer (header : Option PyStr) : Except AuthError PyStr :=
  match header with
  | none => .error ⟨.auth001, "missing Authorization: Bearer <api_key>"⟩
  | some header =>
    if (py "bearer ").isPrefixOf (header.map lowerLatin1) then
      let token := strip (header.drop 7)
      if token = [] then .error ⟨.auth001, "empty bearer token"⟩ else .ok token
    else .error ⟨.auth001, "missing Authorization: Bearer <api_key>"⟩

/-- The first query of `resolve_key` and the checks on its row. -/
def lookupKey (hashKey : PyStr → PyStr) (env : ServerEnvironment) (presented : PyStr)
    (keys : List ApiKeyRow) : Except AuthError ApiKeyRow :=
  match keyPrefixToMode presented with
  | none => .error ⟨.auth001, "unrecognized key prefix"⟩
  | some _ =>
    match keys.find? fun k => k.secretHash = hashKey presented with
    | none => .error ⟨.auth001, "key not found or revoked"⟩
    | some k =>
      if k.apiKeyStatus ≠ .active then .error ⟨.auth001, "key not found or revoked"⟩
      else if k.mode ≠ env.expectedMode then
        .error ⟨.auth003, k.mode.wire ++ " key used against " ++ env.wire ++ " environment"⟩
      else .ok k

/-- The second query of `resolve_key`, which only a deployment-scoped key needs. -/
def ApiKeyRow.principal (k : ApiKeyRow) (grants : List KeyGrant) : KeyPrincipal where
  toKeyIdentity := k.toKeyIdentity
  grantedDeploymentIds :=
    if k.scope = .deployment then
      (grants.filter fun g => g.apiKeyId = k.apiKeyId).map KeyGrant.deploymentId
    else []

/-- `resolve_key`, with nothing between its two queries. -/
def resolveKey (hashKey : PyStr → PyStr) (env : ServerEnvironment) (presented : PyStr)
    (t : KeyTables) : Except AuthError KeyPrincipal := do
  let k ← lookupKey hashKey env presented t.keys
  .ok (k.principal t.grants)

def requirePrincipal (hashKey : PyStr → PyStr) (env : ServerEnvironment)
    (header : Option PyStr) (t : KeyTables) : Except AuthError KeyPrincipal := do
  let presented ← extractBearer header
  resolveKey hashKey env presented t

/-! ### What the commands leave -/

variable {hashKey : PyStr → PyStr} {t t' : KeyTables}

theorem one_eq_ok {α : Type} {clause : String} {o : Option α} {a : α} (h : one clause o = .ok a) :
    o = some a := by
  cases o with
  | none => cases h
  | some b =>
    cases h
    rfl

theorem deploymentOf_eq_some {ref : String} {d : DeploymentRecord}
    (h : t.deploymentOf ref = some d) : d ∈ t.config.deployments ∧ d.deploymentRef = ref :=
  ⟨List.mem_of_find?_eq_some h, by simpa using List.find?_some h⟩

theorem keyOf_eq_some {ref : String} {k : ApiKeyRow} (h : t.keyOf ref = some k) :
    k ∈ t.keys ∧ k.apiKeyRef = ref :=
  ⟨List.mem_of_find?_eq_some h, by simpa using List.find?_some h⟩

theorem insertKey_ok {k : ApiKeyRow} (h : t.insertKey k = .ok t') :
    (∀ e ∈ t.keys, e.apiKeyRef ≠ k.apiKeyRef) ∧
      t' = { t with keys := t.keys ++ [k], nextKey := t.nextKey + 1 } := by
  unfold KeyTables.insertKey at h
  split_ifs at h with htaken
  refine ⟨?_, (Except.ok.inj h).symm⟩
  intro e he href
  exact htaken (List.any_eq_true.2 ⟨e, he, by simp [href]⟩)

/-- The key and the deployment of a grant lie in its workspace. -/
def KeyTables.Grantable (t : KeyTables) (g : KeyGrant) : Prop :=
  (∃ k ∈ t.keys, k.apiKeyId = g.apiKeyId ∧ k.workspaceId = g.workspaceId) ∧
    ∃ d ∈ t.config.deployments, d.id = g.deploymentId ∧ d.workspaceId = g.workspaceId

theorem insertGrant_eq_ok {g : KeyGrant} :
    t.insertGrant g = .ok t' ↔
      t.granted g = false ∧ t.Grantable g ∧ t' = { t with grants := t.grants ++ [g] } := by
  unfold KeyTables.insertGrant KeyTables.Grantable
  cases hgranted : t.granted g with
  | true => simp
  | false =>
    simp only [Bool.false_eq_true, if_false, true_and, Bool.and_eq_true, List.any_eq_true,
      decide_eq_true_eq]
    split_ifs with hkeys
    · rw [Except.ok.injEq, eq_comm]
      exact ⟨fun h => ⟨hkeys, h⟩, And.right⟩
    · constructor
      · intro h
        cases h
      · intro h
        exact absurd h.1 hkeys

/-- The grants `key issue` writes for the deployments it names. -/
def grantsFor (keyId : ℕ) (ds : List DeploymentRecord) : List KeyGrant :=
  ds.map fun d => ⟨d.workspaceId, keyId, d.id⟩

theorem granted_append (g : KeyGrant) (gs : List KeyGrant) :
    ({ t with grants := t.grants ++ gs } : KeyTables).granted g =
      (t.granted g || gs.any fun h => h.apiKeyId = g.apiKeyId ∧ h.deploymentId = g.deploymentId) :=
  List.any_append

theorem granted_snoc {keyId : ℕ} {d e : DeploymentRecord} :
    ({ t with grants := t.grants ++ [⟨d.workspaceId, keyId, d.id⟩] } : KeyTables).granted
        ⟨e.workspaceId, keyId, e.id⟩ = false ↔
      t.granted ⟨e.workspaceId, keyId, e.id⟩ = false ∧ d.id ≠ e.id := by
  rw [granted_append]
  simp

/-- The deployments of a key are granted just when all exist, none is named twice
or granted already, and each lies in the workspace of the key. -/
theorem grantEach_eq_ok {keyId : ℕ} {refs : List String} :
    t.grantEach keyId refs = .ok t' ↔
      ∃ ds, refs.mapM t.deploymentOf = some ds ∧ (ds.map DeploymentRecord.id).Nodup ∧
        (∀ d ∈ ds, t.granted ⟨d.workspaceId, keyId, d.id⟩ = false ∧
          t.Grantable ⟨d.workspaceId, keyId, d.id⟩) ∧
        t' = { t with grants := t.grants ++ grantsFor keyId ds } := by
  induction refs generalizing t with
  | nil =>
    rw [KeyTables.grantEach, Except.ok.injEq, eq_comm]
    simp [grantsFor]
  | cons ref refs ih =>
    cases hd : t.deploymentOf ref with
    | none => simp [KeyTables.grantEach, hd, one, Bind.bind, Except.bind]
    | some d =>
      have hhead : t.grantEach keyId (ref :: refs) =
          (t.insertGrant ⟨d.workspaceId, keyId, d.id⟩).bind (KeyTables.grantEach keyId refs) := by
        simp [KeyTables.grantEach, hd, one, Bind.bind, Except.bind]
      rw [hhead]
      constructor
      · intro h
        obtain ⟨t₁, hinsert, hrest⟩ := bind_eq_ok h
        obtain ⟨hfree, hgrantable, rfl⟩ := insertGrant_eq_ok.1 hinsert
        obtain ⟨ds, hds, hnodup, hall, rfl⟩ := ih.1 hrest
        have hdiffer : ∀ e ∈ ds, d.id ≠ e.id := fun e he => (granted_snoc.1 (hall e he).1).2
        have hnamed : refs.mapM t.deploymentOf = some ds := hds
        refine ⟨d :: ds, by simp [List.mapM_cons, hd, hnamed], ?_, ?_, ?_⟩
        · rw [List.map_cons, List.nodup_cons]
          refine ⟨?_, hnodup⟩
          intro hmem
          obtain ⟨e, he, hid⟩ := List.mem_map.1 hmem
          exact hdiffer e he hid.symm
        · intro e he
          rcases List.mem_cons.1 he with rfl | he
          · exact ⟨hfree, hgrantable⟩
          · exact ⟨(granted_snoc.1 (hall e he).1).1, (hall e he).2⟩
        · simp [grantsFor]
      · rintro ⟨ds, hds, hnodup, hall, rfl⟩
        obtain ⟨rest, hrest, rfl⟩ : ∃ rest, refs.mapM t.deploymentOf = some rest ∧
            ds = d :: rest := by
          rw [List.mapM_cons, hd] at hds
          cases hrest : refs.mapM t.deploymentOf with
          | none => simp [hrest] at hds
          | some rest =>
            rw [hrest] at hds
            exact ⟨rest, rfl, (Option.some.inj hds).symm⟩
        rw [List.map_cons, List.nodup_cons] at hnodup
        obtain ⟨hfree, hgrantable⟩ := hall d List.mem_cons_self
        rw [insertGrant_eq_ok.2 ⟨hfree, hgrantable, rfl⟩]
        apply ih.2
        refine ⟨rest, hrest, hnodup.2, ?_, by simp [grantsFor]⟩
        intro e he
        obtain ⟨hungranted, hlies⟩ := hall e (List.mem_cons_of_mem _ he)
        refine ⟨granted_snoc.2 ⟨hungranted, ?_⟩, hlies⟩
        intro hid
        exact hnodup.1 (List.mem_map.2 ⟨e, he, hid.symm⟩)

/-- The keys of the tables: `api_key_id` and `api_key_ref` are unique, and a grant
stays in one workspace. -/
structure KeyTables.Keyed (t : KeyTables) : Prop where
  id_lt : ∀ k ∈ t.keys, k.apiKeyId < t.nextKey
  ids : (t.keys.map fun k => k.apiKeyId).Nodup
  refs : (t.keys.map fun k => k.apiKeyRef).Nodup
  grantable : ∀ g ∈ t.grants, t.Grantable g
  config : t.config.Keyed

/-- The row `key issue` inserts. -/
def KeyIssue.row (hashKey : PyStr → PyStr) (a : KeyIssue) (secret : Secret) (ref : String)
    (id workspaceId ownerUserId : ℕ) : ApiKeyRow where
  apiKeyId := id
  apiKeyRef := ref
  workspaceId := workspaceId
  ownerUserId := ownerUserId
  mode := a.mode
  scope := a.scope
  roles := a.roles
  apiKeyStatus := .active
  secretHash := hashKey (a.presented secret)

theorem keyOf_eq_none {ref : String} :
    t.keyOf ref = none ↔ ∀ k ∈ t.keys, k.apiKeyRef ≠ ref := by
  simp [KeyTables.keyOf, List.find?_eq_none]

theorem insertKey_eq_ok {k : ApiKeyRow} :
    t.insertKey k = .ok t' ↔ t.keyOf k.apiKeyRef = none ∧
      t' = { t with keys := t.keys ++ [k], nextKey := t.nextKey + 1 } := by
  rw [keyOf_eq_none]
  constructor
  · exact insertKey_ok
  · rintro ⟨hfree, rfl⟩
    unfold KeyTables.insertKey
    rw [if_neg]
    simpa using hfree

/-- A key that is being issued has no grants, and may be granted the deployments
of its workspace. -/
theorem KeyTables.Keyed.grantable_new (ht : t.Keyed) {k : ApiKeyRow} (hk : k.apiKeyId = t.nextKey)
    {d : DeploymentRecord} (hd : d ∈ t.config.deployments) :
    let issued : KeyTables := { t with keys := t.keys ++ [k], nextKey := t.nextKey + 1 }
    issued.granted ⟨d.workspaceId, k.apiKeyId, d.id⟩ = false ∧
      (issued.Grantable ⟨d.workspaceId, k.apiKeyId, d.id⟩ ↔ d.workspaceId = k.workspaceId) := by
  refine ⟨?_, ?_, ?_⟩
  · rw [KeyTables.granted, List.any_eq_false]
    intro g hg
    obtain ⟨⟨e, he, hid, -⟩, -⟩ := ht.grantable g hg
    have hlt := ht.id_lt e he
    simp only [decide_eq_true_eq, not_and]
    omega
  · rintro ⟨⟨e, he, hid, hworkspace⟩, -⟩
    rcases List.mem_append.1 he with he | he
    · have hlt := ht.id_lt e he
      simp only at hid
      omega
    · rw [List.mem_singleton.1 he] at hworkspace
      exact hworkspace.symm
  · intro hworkspace
    exact ⟨⟨k, by simp, rfl, hworkspace.symm⟩, d, hd, rfl, rfl⟩

theorem mapM_deploymentOf_mem {refs : List String} {ds : List DeploymentRecord}
    (h : refs.mapM t.deploymentOf = some ds) : ∀ d ∈ ds, d ∈ t.config.deployments := by
  induction refs generalizing ds with
  | nil =>
    obtain rfl : ds = [] := by simpa [eq_comm] using h
    simp
  | cons ref refs ih =>
    cases hd : t.deploymentOf ref with
    | none => simp [List.mapM_cons, hd] at h
    | some d =>
      cases hrest : refs.mapM t.deploymentOf with
      | none => simp [List.mapM_cons, hd, hrest] at h
      | some rest =>
        obtain rfl : ds = d :: rest := by simpa [List.mapM_cons, hd, hrest, eq_comm] using h
        exact List.forall_mem_cons.2 ⟨(deploymentOf_eq_some hd).1, ih hrest⟩

/-- `key issue` issues a key exactly when its workspace and owner exist, the
reference it draws is free, and the deployments it names exist, lie in the
workspace and are named once each. -/
theorem keyIssue_eq_ok (ht : t.Keyed) {a : KeyIssue} {secret : Secret} {ref : String}
    {row : ApiKeyRow} :
    keyIssue hashKey a secret ref t = .ok (row, t') ↔
      ∃ ws owner ds, t.workspaceOf a.workspaceRef = some ws ∧
        t.memberOf ws.id a.ownerUserRef = some owner ∧ t.keyOf ref = none ∧
        a.deploymentRefs.mapM t.deploymentOf = some ds ∧
        (ds.map DeploymentRecord.id).Nodup ∧ (∀ d ∈ ds, d.workspaceId = ws.id) ∧
        row = a.row hashKey secret ref t.nextKey ws.id owner.id ∧
        t' = { t with
          keys := t.keys ++ [row]
          nextKey := t.nextKey + 1
          grants := t.grants ++ grantsFor row.apiKeyId ds } := by
  constructor
  · intro h
    obtain ⟨ws, hws, h⟩ := bind_eq_ok h
    obtain ⟨owner, howner, h⟩ := bind_eq_ok h
    obtain ⟨t₁, hinsert, h⟩ := bind_eq_ok h
    obtain ⟨t₂, hgrant, h⟩ := bind_eq_ok h
    obtain ⟨hrow, rfl⟩ := Prod.mk.inj (Except.ok.inj h)
    obtain ⟨hfree, rfl⟩ := insertKey_eq_ok.1 hinsert
    obtain ⟨ds, hds, hnodup, hall, rfl⟩ := grantEach_eq_ok.1 hgrant
    have hnamed : a.deploymentRefs.mapM t.deploymentOf = some ds := hds
    refine ⟨ws, owner, ds, one_eq_ok hws, one_eq_ok howner, hfree, hnamed, hnodup, ?_, hrow.symm,
      ?_⟩
    · intro d hd
      exact (ht.grantable_new rfl (mapM_deploymentOf_mem hnamed d hd)).2.1 (hall d hd).2
    · rw [← hrow]
  · rintro ⟨ws, owner, ds, hws, howner, hfree, hds, hnodup, hlies, rfl, rfl⟩
    let k := a.row hashKey secret ref t.nextKey ws.id owner.id
    let issued : KeyTables := { t with keys := t.keys ++ [k], nextKey := t.nextKey + 1 }
    have hinsert : t.insertKey k = .ok issued := insertKey_eq_ok.2 ⟨hfree, rfl⟩
    have hall : ∀ d ∈ ds, issued.granted ⟨d.workspaceId, k.apiKeyId, d.id⟩ = false ∧
        issued.Grantable ⟨d.workspaceId, k.apiKeyId, d.id⟩ := by
      intro d hd
      obtain ⟨hnew, hlie⟩ := ht.grantable_new (k := k) rfl (mapM_deploymentOf_mem hds d hd)
      exact ⟨hnew, hlie.2 (hlies d hd)⟩
    have hgrant : issued.grantEach k.apiKeyId a.deploymentRefs =
        .ok { issued with grants := t.grants ++ grantsFor k.apiKeyId ds } :=
      grantEach_eq_ok.2 ⟨ds, hds, hnodup, hall, rfl⟩
    unfold keyIssue
    rw [hws]
    change (one _ (t.memberOf ws.id a.ownerUserRef) >>= _) = _
    rw [howner]
    change (t.insertKey k >>= _) = _
    rw [hinsert]
    change (issued.grantEach k.apiKeyId a.deploymentRefs >>= _) = _
    rw [hgrant]
    rfl

theorem keyRevoke_ok {ref : String} {now : ℕ} (h : keyRevoke ref now t = .ok t') :
    (∃ k ∈ t.keys, k.apiKeyRef = ref ∧ k.apiKeyStatus = .active) ∧
      t' = { t with keys := t.keys.map (ApiKeyRow.revoke ref now) } := by
  unfold keyRevoke at h
  split_ifs at h with hany
  obtain ⟨k, hk, hrevocable⟩ := List.any_eq_true.1 hany
  simp only [ApiKeyRow.revocable, decide_eq_true_eq] at hrevocable
  exact ⟨⟨k, hk, hrevocable⟩, (Except.ok.inj h).symm⟩

@[simp] theorem ApiKeyRow.revoke_identity (ref : String) (now : ℕ) (k : ApiKeyRow) :
    (k.revoke ref now).toKeyIdentity = k.toKeyIdentity := by
  unfold ApiKeyRow.revoke
  split <;> rfl

@[simp] theorem ApiKeyRow.revoke_secretHash (ref : String) (now : ℕ) (k : ApiKeyRow) :
    (k.revoke ref now).secretHash = k.secretHash := by
  unfold ApiKeyRow.revoke
  split <;> rfl

/-- `grant add` grants a deployment of the workspace of the key, unless it is
granted already. -/
theorem grantAdd_ok {keyRef deploymentRef : String} {id : ℕ}
    (h : grantAdd keyRef deploymentRef t = .ok (id, t')) :
    ∃ k d, t.keyOf keyRef = some k ∧ t.deploymentOf deploymentRef = some d ∧ id = d.id ∧
      d.workspaceId = k.workspaceId ∧
      (t.granted ⟨k.workspaceId, k.apiKeyId, d.id⟩ = true ∧ t' = t ∨
        t.granted ⟨k.workspaceId, k.apiKeyId, d.id⟩ = false ∧
          t' = { t with grants := t.grants ++ [⟨k.workspaceId, k.apiKeyId, d.id⟩] }) := by
  obtain ⟨k, hk, h⟩ := bind_eq_ok h
  obtain ⟨d, hd, h⟩ := bind_eq_ok h
  split_ifs at h with hcross
  refine ⟨k, d, one_eq_ok hk, one_eq_ok hd, ?_⟩
  dsimp only at h
  split_ifs at h with hgranted
  · obtain ⟨rfl, rfl⟩ := Prod.mk.inj (Except.ok.inj h)
    exact ⟨rfl, not_not.1 hcross, Or.inl ⟨hgranted, rfl⟩⟩
  · obtain ⟨t₁, hinsert, h⟩ := bind_eq_ok h
    obtain ⟨rfl, rfl⟩ := Prod.mk.inj (Except.ok.inj h)
    obtain ⟨hfree, -, rfl⟩ := insertGrant_eq_ok.1 hinsert
    exact ⟨rfl, not_not.1 hcross, Or.inr ⟨hfree, rfl⟩⟩

end TrueFigure.Server
