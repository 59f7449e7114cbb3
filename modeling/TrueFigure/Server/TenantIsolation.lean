import TrueFigure.Server.Keyring

/-!
# Isolation of tenants

What a key reaches. A request reads the row of its key, then the grants, then the
deployment it names, in transactions with any others between them.
-/
namespace TrueFigure.Server

open TrueFigure.Library TrueFigure.Python

variable {hashKey : PyStr → PyStr} {env : ServerEnvironment} {presented : PyStr}
  {t₀ t t' u : KeyTables} {e : KeyEvent} {trace trace' trace'' : List (KeyTables × KeyEvent)}

theorem lookupKey_ok {keys : List ApiKeyRow} {k : ApiKeyRow}
    (h : lookupKey hashKey env presented keys = .ok k) :
    k ∈ keys ∧ k.secretHash = hashKey presented ∧ k.apiKeyStatus = .active ∧
      k.mode = env.expectedMode := by
  unfold lookupKey at h
  split at h
  · cases h
  · split at h
    · cases h
    · rename_i hfound
      split_ifs at h with hactive hmode
      cases h
      have hhash := List.find?_some hfound
      simp only [decide_eq_true_eq] at hhash
      exact ⟨List.mem_of_find?_eq_some hfound, hhash, not_not.1 hactive, not_not.1 hmode⟩

theorem resolveKey_ok {p : KeyPrincipal} (h : resolveKey hashKey env presented t = .ok p) :
    ∃ k ∈ t.keys, k.apiKeyStatus = .active ∧ p = k.principal t.grants := by
  obtain ⟨k, hk, h⟩ := bind_eq_ok h
  obtain ⟨hmem, -, hactive, -⟩ := lookupKey_ok hk
  exact ⟨k, hmem, hactive, (Except.ok.inj h).symm⟩

/-- A row as it stands later: its identity is the same, and a revoked key is
revoked still. -/
structure Outlasts (k k' : ApiKeyRow) : Prop where
  identity : k'.toKeyIdentity = k.toKeyIdentity
  revoked : k.apiKeyStatus ≠ .active → k'.apiKeyStatus = k.apiKeyStatus

theorem Outlasts.refl (k : ApiKeyRow) : Outlasts k k := ⟨rfl, fun _ => rfl⟩

theorem Outlasts.trans {k k' k'' : ApiKeyRow} (h : Outlasts k k') (h' : Outlasts k' k'') :
    Outlasts k k'' := by
  refine ⟨h'.identity.trans h.identity, ?_⟩
  intro hrevoked
  have hstatus := h.revoked hrevoked
  rw [h'.revoked (hstatus ▸ hrevoked), hstatus]

theorem outlasts_revoke (ref : String) (now : ℕ) (k : ApiKeyRow) :
    Outlasts k (k.revoke ref now) := by
  refine ⟨k.revoke_identity ref now, ?_⟩
  intro hrevoked
  rw [ApiKeyRow.revoke, if_neg (by simp [ApiKeyRow.revocable, hrevoked])]

theorem KeyStep.keeps (h : KeyStep hashKey t e t') (ht : t.Keyed) :
    (∀ k ∈ t.keys, ∃ k' ∈ t'.keys, Outlasts k k') ∧ t.grants <+: t'.grants ∧
      t.config.fixed <+: t'.config.fixed := by
  cases h with
  | issue h =>
    obtain ⟨ws, owner, ds, -, -, -, -, -, -, -, rfl⟩ := (keyIssue_eq_ok ht).1 h
    exact ⟨fun k hk => ⟨k, List.mem_append_left _ hk, .refl k⟩, List.prefix_append _ _,
      List.prefix_rfl⟩
  | revoke h =>
    obtain ⟨-, rfl⟩ := keyRevoke_ok h
    exact ⟨fun k hk => ⟨_, List.mem_map_of_mem hk, outlasts_revoke _ _ k⟩, List.prefix_rfl,
      List.prefix_rfl⟩
  | grant h =>
    obtain ⟨k, d, -, -, -, -, ⟨-, rfl⟩ | ⟨-, rfl⟩⟩ := grantAdd_ok h
    · exact ⟨fun k hk => ⟨k, hk, .refl k⟩, List.prefix_rfl, List.prefix_rfl⟩
    · exact ⟨fun k hk => ⟨k, hk, .refl k⟩, List.prefix_append _ _, List.prefix_rfl⟩
  | configure h => exact ⟨fun k hk => ⟨k, hk, .refl k⟩, List.prefix_rfl, h.grows⟩
  | populate => exact ⟨fun k hk => ⟨k, hk, .refl k⟩, List.prefix_rfl, List.prefix_rfl⟩

theorem keeps_of_run (hrun : Run (KeyStep hashKey) t trace u) (ht : t.Keyed) :
    (∀ k ∈ t.keys, ∃ k' ∈ u.keys, Outlasts k k') ∧ t.grants <+: u.grants ∧
      t.config.fixed <+: u.config.fixed := by
  induction hrun with
  | refl t => exact ⟨fun k hk => ⟨k, hk, .refl k⟩, List.prefix_rfl, List.prefix_rfl⟩
  | head hstep _ ih =>
    obtain ⟨hkeys, hgrants, hconfig⟩ := hstep.keeps ht
    obtain ⟨hkeys', hgrants', hconfig'⟩ := ih (hstep.keyed ht)
    refine ⟨?_, hgrants.trans hgrants', hconfig.trans hconfig'⟩
    intro k hk
    obtain ⟨k', hk', hlast⟩ := hkeys k hk
    obtain ⟨k'', hk'', hlast'⟩ := hkeys' k' hk'
    exact ⟨k'', hk'', hlast.trans hlast'⟩

/-! ### Revocation -/

/-- Once a key is revoked no presented text resolves to it again, whatever is
issued, granted, revoked or configured afterwards. -/
theorem revocation_final (hfresh : t₀.Fresh) (hrun : Run (KeyStep hashKey) t₀ trace t)
    {ref : String} {now : ℕ} (hrevoke : keyRevoke ref now t = .ok t')
    (hrun' : Run (KeyStep hashKey) t' trace' u) {p : KeyPrincipal}
    (hp : resolveKey hashKey env presented u = .ok p) : p.apiKeyRef ≠ ref := by
  have ht := keyed_of_run hrun hfresh.keyed
  have hstep : KeyStep hashKey t (.revoked ref) t' := .revoke hrevoke
  have ht' := hstep.keyed ht
  obtain ⟨⟨k, hk, href, hactive⟩, rfl⟩ := keyRevoke_ok hrevoke
  have hrevoked : (k.revoke ref now).apiKeyStatus = .revoked now := by
    rw [ApiKeyRow.revoke, if_pos (by simp [ApiKeyRow.revocable, href, hactive])]
  obtain ⟨k', hk', hlast⟩ := (keeps_of_run hrun' ht').1 _ (List.mem_map_of_mem hk)
  have hdead : k'.apiKeyStatus = .revoked now := by
    rw [hlast.revoked (by rw [hrevoked]; simp), hrevoked]
  have href' : k'.apiKeyRef = ref := by
    rw [hlast.identity, ApiKeyRow.revoke_identity]
    exact href
  obtain ⟨row, hrow, hlive, rfl⟩ := resolveKey_ok hp
  intro hsame
  have hrefs := (keyed_of_run hrun' ht').refs
  have heq : row = k' := List.inj_on_of_nodup_map hrefs hrow hk' (hsame.trans href'.symm)
  rw [heq, hdead] at hlive
  cases hlive

/-! ### What a key reaches -/

/-- `_resolve_deployment` finds the deployment of the reference in the workspace of
the principal, where the principal may touch it. -/
theorem resolveDeployment_eq_ok {principal : Principal} {wireId : String}
    {c : DeploymentTables} (hc : c.Keyed) {d : DeploymentRecord} :
    resolveDeployment principal wireId c.deployments = .ok d ↔
      bindText wireId = .ok wireId ∧ d ∈ c.deployments ∧ d.deploymentRef = wireId ∧
        d.workspaceId = principal.workspaceId ∧ principal.mayTouch d.id = true := by
  constructor
  · intro h
    obtain ⟨ref, hbind, h⟩ := bind_eq_ok h
    obtain rfl := bindText_eq_ok hbind
    split at h
    · cases h
    · rename_i hfound
      split_ifs at h with htouch
      cases h
      have hmatch := List.find?_some hfound
      simp only [decide_eq_true_eq] at hmatch
      exact ⟨hbind, List.mem_of_find?_eq_some hfound, hmatch.1, hmatch.2, htouch⟩
  · rintro ⟨hbind, hd, href, hworkspace, htouch⟩
    have hfound : c.deployments.find? (fun d => d.deploymentRef = wireId ∧
        d.workspaceId = principal.workspaceId) = some d := by
      cases hfind : c.deployments.find? (fun d => d.deploymentRef = wireId ∧
          d.workspaceId = principal.workspaceId) with
      | none =>
        rw [List.find?_eq_none] at hfind
        exact absurd (hfind d hd) (by simp [href, hworkspace])
      | some d' =>
        have hmatch := List.find?_some hfind
        simp only [decide_eq_true_eq] at hmatch
        rw [List.inj_on_of_nodup_map hc.nodup_refs (List.mem_of_find?_eq_some hfind) hd
          (hmatch.1.trans href.symm)]
    unfold resolveDeployment
    rw [hbind]
    simp only [bind, Except.bind, hfound, htouch, if_true]

theorem mem_grantedDeploymentIds {k : ApiKeyRow} {grants : List KeyGrant} {id : ℕ} :
    id ∈ (k.principal grants).grantedDeploymentIds ↔
      k.scope = .deployment ∧ ∃ g ∈ grants, g.apiKeyId = k.apiKeyId ∧ g.deploymentId = id := by
  unfold ApiKeyRow.principal
  by_cases hscope : k.scope = .deployment
  · simp [hscope, and_assoc]
  · simp [hscope]

/-- A request that reads its key, its grants and the deployment it names at three
moments of a run reaches exactly the deployments of the workspace of its key that
the key was granted, or all of them where its scope is the workspace. -/
theorem request_reaches (hfresh : t₀.Fresh) (hrun : Run (KeyStep hashKey) t₀ trace t)
    {k : ApiKeyRow} (hk : lookupKey hashKey env presented t.keys = .ok k)
    (hrun' : Run (KeyStep hashKey) t trace' t') (hrun'' : Run (KeyStep hashKey) t' trace'' u)
    (wireId : String) (d : DeploymentRecord) :
    resolveDeployment (k.principal t'.grants).principal wireId u.config.deployments = .ok d ↔
      bindText wireId = .ok wireId ∧ d ∈ u.config.deployments ∧ d.deploymentRef = wireId ∧
        d.workspaceId = k.workspaceId ∧
        (k.scope = .workspace ∨ ∃ g ∈ t'.grants, g.workspaceId = k.workspaceId ∧
          g.apiKeyId = k.apiKeyId ∧ g.deploymentId = d.id) := by
  have ht := keyed_of_run hrun hfresh.keyed
  have ht' := keyed_of_run hrun' ht
  have hu := keyed_of_run hrun'' ht'
  obtain ⟨k', hk', hlast⟩ := (keeps_of_run hrun' ht).1 k (lookupKey_ok hk).1
  -- a grant of the key lies in the workspace of the key
  have hgrant : ∀ g ∈ t'.grants, g.apiKeyId = k.apiKeyId → g.workspaceId = k.workspaceId := by
    intro g hg hid
    obtain ⟨⟨row, hrow, hrowid, hworkspace⟩, -⟩ := ht'.grantable g hg
    have heq : row = k' := List.inj_on_of_nodup_map ht'.ids hrow hk'
      (by rw [hrowid, hid, hlast.identity])
    rw [← hworkspace, heq, hlast.identity]
  have htouch : (k.principal t'.grants).principal.mayTouch d.id = true ↔
      (k.scope = .workspace ∨ ∃ g ∈ t'.grants, g.workspaceId = k.workspaceId ∧
        g.apiKeyId = k.apiKeyId ∧ g.deploymentId = d.id) := by
    rw [Principal.mayTouch, Bool.or_eq_true, decide_eq_true_eq, List.contains_iff_mem]
    change k.scope = .workspace ∨ d.id ∈ (k.principal t'.grants).grantedDeploymentIds ↔ _
    rw [mem_grantedDeploymentIds]
    cases hscope : k.scope with
    | workspace => simp
    | deployment =>
      simp only [reduceCtorEq, false_or, true_and]
      constructor
      · rintro ⟨g, hg, hid, hdep⟩
        exact ⟨g, hg, hgrant g hg hid, hid, hdep⟩
      · rintro ⟨g, hg, -, hid, hdep⟩
        exact ⟨g, hg, hid, hdep⟩
  rw [resolveDeployment_eq_ok hu.config, htouch]
  rfl

/-! ### A key granted and revoked beside a request -/

/-- The key of `scopedIssue`, issued without its deployment. -/
def ungrantedIssue : KeyIssue := { scopedIssue with deploymentRefs := [] }

def ungrantedTables : KeyTables := { scopedTables with grants := [] }

theorem issues_ungranted :
    keyIssue id ungrantedIssue zeroSecret "ak_1" acmeTables = .ok (scopedRow, ungrantedTables) :=
  (keyIssue_eq_ok acmeTables_fresh.keyed).2 ⟨⟨1, "ws_prod"⟩, ⟨5, some 1, "u_admin"⟩, [],
    by decide +kernel, by decide +kernel, rfl, rfl, List.nodup_nil, by simp, rfl, rfl⟩

theorem ungranted_looks_up : lookupKey id .production (scopedIssue.presented zeroSecret)
    ungrantedTables.keys = .ok scopedRow := by
  unfold lookupKey
  rw [keyPrefixToMode_presented]
  simp [ungrantedTables, scopedTables, scopedRow, KeyIssue.row, scopedIssue,
    ServerEnvironment.expectedMode]

/-- The key is granted its deployment after the request has read it, and revoked before the
request reads the deployment: it reaches it. -/
theorem request_reaches_scoped :
    ungrantedTables.grants = [] ∧ grantAdd "ak_1" "dep_1" ungrantedTables = .ok (1, scopedTables) ∧
      ∃ u, keyRevoke "ak_1" 0 scopedTables = .ok u ∧
        resolveDeployment (scopedRow.principal scopedTables.grants).principal "dep_1"
          u.config.deployments =
            .ok ⟨1, 1, .saasTool, .measured, .active, "dep_1", "Assistant", some "crm-7", none⟩ := by
  have hgrant : grantAdd "ak_1" "dep_1" ungrantedTables = .ok (1, scopedTables) := rfl
  have hrevoke : keyRevoke "ak_1" 0 scopedTables =
      .ok { scopedTables with keys := [scopedRow.revoke "ak_1" 0] } := rfl
  refine ⟨rfl, hgrant, _, hrevoke, (request_reaches acmeTables_fresh
    (.single (.issue issues_ungranted)) ungranted_looks_up (.single (.grant hgrant))
    (.single (.revoke hrevoke)) "dep_1" _).2 ⟨by decide +kernel, by decide +kernel, rfl, rfl,
      .inr ⟨⟨1, 1, 1⟩, by decide +kernel, rfl, rfl, rfl⟩⟩⟩

def otherSecret : Secret where
  text := List.replicate 32 (hexDigit 1)
  hex := fun _ hc => ⟨1, List.eq_of_mem_replicate hc⟩
  length_eq := List.length_replicate

/-- A key is revoked and another one issued in its place: no text resolves to the first. -/
theorem revocation_final_scoped : ∃ t row u, keyRevoke "ak_1" 0 scopedTables = .ok t ∧
    keyIssue id scopedIssue otherSecret "ak_2" t = .ok (row, u) ∧
      ∀ presented p, resolveKey id .production presented u = .ok p → p.apiKeyRef ≠ "ak_1" := by
  have hissued : KeyStep id acmeTables _ scopedTables := .issue issues_scoped
  have hrevoke : keyRevoke "ak_1" 0 scopedTables =
      .ok { scopedTables with keys := [scopedRow.revoke "ak_1" 0] } := rfl
  have hrevoked : KeyStep id scopedTables (.revoked "ak_1") _ := .revoke hrevoke
  have hkeyed := hrevoked.keyed (hissued.keyed acmeTables_fresh.keyed)
  have hissue := (@keyIssue_eq_ok id _ _ hkeyed scopedIssue otherSecret "ak_2" _).2
    ⟨⟨1, "ws_prod"⟩, ⟨5, some 1, "u_admin"⟩, assistantTables.deployments, by decide +kernel,
      by decide +kernel, rfl, by decide +kernel, by decide +kernel, by decide +kernel, rfl, rfl⟩
  exact ⟨_, _, _, hrevoke, hissue, fun presented p hp => revocation_final acmeTables_fresh
    (.single hissued) hrevoke (.single (.issue hissue)) hp⟩

end TrueFigure.Server
