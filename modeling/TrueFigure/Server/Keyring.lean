import TrueFigure.Server.ApiKeys

/-!
# The keyring

What the key plane is for: a presented key is worth what the operator has issued
under it, until it is revoked. The keyring says this over the events of a run,
with no tables and no hashes, and `resolve_key` refines it.
-/
namespace TrueFigure.Server

open TrueFigure.Library TrueFigure.Python

/-! ### Runs -/

/-- What a step does to the keys. -/
inductive KeyEvent
  | issued (presented : PyStr) (identity : KeyIdentity) (deploymentIds : List ℕ)
  | revoked (ref : String)
  | granted (ref : String) (deploymentId : ℕ)
  | other

/-- One committed transaction: a command, a request that registers or updates a
deployment, or one that touches neither keys nor deployments. -/
inductive KeyStep (hashKey : PyStr → PyStr) : KeyTables → KeyEvent → KeyTables → Prop
  | issue {t t' : KeyTables} {a : KeyIssue} {secret : Secret} {ref : String} {row : ApiKeyRow}
      (h : keyIssue hashKey a secret ref t = .ok (row, t')) :
      KeyStep hashKey t (.issued (a.presented secret) row.toKeyIdentity
        ((a.deploymentRefs.filterMap t.deploymentOf).map DeploymentRecord.id)) t'
  | revoke {t t' : KeyTables} {ref : String} {now : ℕ} (h : keyRevoke ref now t = .ok t') :
      KeyStep hashKey t (.revoked ref) t'
  | grant {t t' : KeyTables} {keyRef deploymentRef : String} {id : ℕ}
      (h : grantAdd keyRef deploymentRef t = .ok (id, t')) :
      KeyStep hashKey t (.granted keyRef id) t'
  | configure {t : KeyTables} {config : DeploymentTables} {timestamptz : String → Option ℤ}
      {principal : Principal} (h : DeploymentStep timestamptz t.config principal config) :
      KeyStep hashKey t .other { t with config := config }
  | populate {t : KeyTables} (workspaces : List NamedWorkspace) (members : List MemberRow) :
      KeyStep hashKey t .other { t with workspaces := workspaces, members := members }

variable {hashKey : PyStr → PyStr} {t t' : KeyTables} {e : KeyEvent}

theorem mapM_eq_filterMap {α β : Type} {f : α → Option β} {xs : List α} {ys : List β}
    (h : xs.mapM f = some ys) : xs.filterMap f = ys := by
  induction xs generalizing ys with
  | nil =>
    obtain rfl : ys = [] := by simpa [eq_comm] using h
    rfl
  | cons x xs ih =>
    cases hx : f x with
    | none => simp [List.mapM_cons, hx] at h
    | some y =>
      cases hrest : xs.mapM f with
      | none => simp [List.mapM_cons, hx, hrest] at h
      | some rest =>
        obtain rfl : ys = y :: rest := by simpa [List.mapM_cons, hx, hrest, eq_comm] using h
        rw [List.filterMap_cons_some hx, ih hrest]

/-- A grant stays in its workspace when keys and deployments are added. -/
theorem KeyTables.Grantable.mono {g : KeyGrant} (h : t.Grantable g)
    (hkeys : ∀ k ∈ t.keys, ∃ k' ∈ t'.keys, k'.toKeyIdentity = k.toKeyIdentity)
    (hconfig : t.config.fixed <+: t'.config.fixed) : t'.Grantable g := by
  obtain ⟨⟨k, hk, hid, hworkspace⟩, d, hd, hdid, hdworkspace⟩ := h
  obtain ⟨k', hk', hsame⟩ := hkeys k hk
  have hmem : d.fixed ∈ t'.config.fixed := hconfig.subset (List.mem_map_of_mem hd)
  obtain ⟨d', hd', hfixed⟩ := List.mem_map.1 hmem
  refine ⟨⟨k', hk', by rw [hsame]; exact hid, by rw [hsame]; exact hworkspace⟩, d', hd', ?_, ?_⟩
  · exact (congrArg FixedColumns.id hfixed).trans hdid
  · exact (congrArg FixedColumns.workspaceId hfixed).trans hdworkspace

theorem mem_map_revoke {ref : String} {now : ℕ} {k : ApiKeyRow} (hk : k ∈ t.keys) :
    ∃ k' ∈ t.keys.map (ApiKeyRow.revoke ref now), k'.toKeyIdentity = k.toKeyIdentity :=
  ⟨_, List.mem_map_of_mem hk, k.revoke_identity ref now⟩

theorem KeyStep.keyed (h : KeyStep hashKey t e t') (ht : t.Keyed) : t'.Keyed := by
  cases h with
  | issue h =>
    obtain ⟨ws, owner, ds, -, -, hfree, hds, -, hlies, hrow, rfl⟩ := (keyIssue_eq_ok ht).1 h
    rename_i row
    have hid : row.apiKeyId = t.nextKey := by rw [hrow]; rfl
    have hworkspace : row.workspaceId = ws.id := by rw [hrow]; rfl
    constructor
    · intro k hk
      rcases List.mem_append.1 hk with hk | hk
      · exact Nat.lt_succ_of_lt (ht.id_lt k hk)
      · rw [List.mem_singleton.1 hk, hid]
        exact Nat.lt_succ_self _
    · rw [List.map_append, List.nodup_append]
      refine ⟨ht.ids, by simp, ?_⟩
      intro i hi j hj
      obtain ⟨k, hk, rfl⟩ := List.mem_map.1 hi
      have hlt := ht.id_lt k hk
      simp only [List.map_cons, List.map_nil, List.mem_singleton] at hj
      omega
    · rw [List.map_append, List.nodup_append]
      refine ⟨ht.refs, by simp, ?_⟩
      intro r hr s hs
      obtain ⟨k, hk, rfl⟩ := List.mem_map.1 hr
      simp only [List.map_cons, List.map_nil, List.mem_singleton] at hs
      rw [hs, hrow]
      exact keyOf_eq_none.1 hfree k hk
    · intro g hg
      rcases List.mem_append.1 hg with hg | hg
      · exact (ht.grantable g hg).mono (fun k hk => ⟨k, List.mem_append_left _ hk, rfl⟩)
          List.prefix_rfl
      · obtain ⟨d, hd, rfl⟩ := List.mem_map.1 hg
        refine ⟨⟨row, by simp, rfl, ?_⟩, d, mapM_deploymentOf_mem hds d hd, rfl, rfl⟩
        rw [hworkspace, hlies d hd]
    · exact ht.config
  | revoke h =>
    obtain ⟨-, rfl⟩ := keyRevoke_ok h
    constructor
    · intro k' hk'
      obtain ⟨k, hk, rfl⟩ := List.mem_map.1 hk'
      rw [ApiKeyRow.revoke_identity]
      exact ht.id_lt k hk
    · simpa [List.map_map, Function.comp_def] using ht.ids
    · simpa [List.map_map, Function.comp_def] using ht.refs
    · exact fun g hg => (ht.grantable g hg).mono (fun k hk => mem_map_revoke hk) List.prefix_rfl
    · exact ht.config
  | grant h =>
    obtain ⟨k, d, hk, hd, -, hsame, ⟨-, rfl⟩ | ⟨-, rfl⟩⟩ := grantAdd_ok h
    · exact ht
    · refine ⟨ht.id_lt, ht.ids, ht.refs, ?_, ht.config⟩
      intro g hg
      rcases List.mem_append.1 hg with hg | hg
      · exact ht.grantable g hg
      · rw [List.mem_singleton.1 hg]
        exact ⟨⟨k, (keyOf_eq_some hk).1, rfl, rfl⟩, d, (deploymentOf_eq_some hd).1, rfl, hsame⟩
  | configure h =>
    refine ⟨ht.id_lt, ht.ids, ht.refs, ?_, h.keyed ht.config⟩
    exact fun g hg => (ht.grantable g hg).mono (fun k hk => ⟨k, hk, rfl⟩) h.grows
  | populate => exact ⟨ht.id_lt, ht.ids, ht.refs, ht.grantable, ht.config⟩

/-! ### The keyring -/

/-- A key its holder may present, and what the operator has made of it. -/
structure Credential where
  key : PyStr
  identity : KeyIdentity
  live : Bool
  granted : List ℕ

/-- The credentials in the order in which they were issued. -/
abbrev Keyring := List Credential

def Credential.principal (c : Credential) : KeyPrincipal where
  toKeyIdentity := c.identity
  grantedDeploymentIds := if c.identity.scope = .deployment then c.granted else []

def Credential.revoke (ref : String) (c : Credential) : Credential :=
  if c.identity.apiKeyRef = ref then { c with live := false } else c

def Credential.grant (ref : String) (deploymentId : ℕ) (c : Credential) : Credential :=
  if c.identity.apiKeyRef = ref ∧ deploymentId ∉ c.granted then
    { c with granted := c.granted ++ [deploymentId] }
  else c

namespace Keyring

def apply (K : Keyring) : KeyEvent → Keyring
  | .issued presented identity deploymentIds => K ++ [⟨presented, identity, true, deploymentIds⟩]
  | .revoked ref => K.map (Credential.revoke ref)
  | .granted ref deploymentId => K.map (Credential.grant ref deploymentId)
  | .other => K

def after (events : List KeyEvent) : Keyring := events.foldl apply []

/-- A key is worth its credential while that is live, where its mode serves. -/
def authenticate (K : Keyring) (env : ServerEnvironment) (presented : PyStr) :
    Except AuthCode KeyPrincipal :=
  match K.find? fun c => c.key = presented with
  | none => .error .auth001
  | some c =>
    if c.live = false then .error .auth001
    else if c.identity.mode ≠ env.expectedMode then .error .auth003
    else .ok c.principal

end Keyring

def issuedKeys (events : List KeyEvent) : List PyStr :=
  events.filterMap fun e => match e with
    | .issued presented _ _ => some presented
    | _ => none

theorem issuedKeys_append (events later : List KeyEvent) :
    issuedKeys (events ++ later) = issuedKeys events ++ issuedKeys later :=
  List.filterMap_append

theorem issuedKeys_issued (presented : PyStr) (identity : KeyIdentity) (ids : List ℕ)
    (events : List KeyEvent) :
    issuedKeys (.issued presented identity ids :: events) = presented :: issuedKeys events := rfl

@[simp] theorem Credential.revoke_key (ref : String) (c : Credential) :
    (c.revoke ref).key = c.key := by
  unfold Credential.revoke
  split <;> rfl

@[simp] theorem Credential.grant_key (ref : String) (id : ℕ) (c : Credential) :
    (c.grant ref id).key = c.key := by
  unfold Credential.grant
  split <;> rfl

theorem Keyring.after_snoc (events : List KeyEvent) (e : KeyEvent) :
    after (events ++ [e]) = (after events).apply e := by
  simp [after]

theorem Keyring.map_key_after (events : List KeyEvent) :
    (after events).map Credential.key = issuedKeys events := by
  induction events using List.reverseRecOn with
  | nil => rfl
  | append_singleton events e ih =>
    rw [after_snoc, issuedKeys, List.filterMap_append, ← issuedKeys, ← ih]
    cases e <;> simp [Keyring.apply, Function.comp_def]

/-! ### Refinement -/

/-- The row of a credential. -/
structure Stands (hashKey : PyStr → PyStr) (grants : List KeyGrant) (k : ApiKeyRow)
    (c : Credential) : Prop where
  identity : k.toKeyIdentity = c.identity
  hash : k.secretHash = hashKey c.key
  known : keyPrefixToMode c.key = some k.mode
  live : k.apiKeyStatus = .active ↔ c.live = true
  granted : (grants.filter fun g => g.apiKeyId = k.apiKeyId).map KeyGrant.deploymentId = c.granted

/-- The tables hold the keyring. -/
def Represents (hashKey : PyStr → PyStr) (t : KeyTables) (K : Keyring) : Prop :=
  List.Forall₂ (Stands hashKey t.grants) t.keys K

theorem length_modeToKeyPrefix (mode : KeyMode) : (modeToKeyPrefix mode).length = 8 := by
  cases mode <;> decide +kernel

theorem modeToKeyPrefix_injective {mode mode' : KeyMode}
    (h : modeToKeyPrefix mode = modeToKeyPrefix mode') : mode = mode' := by
  revert h
  cases mode <;> cases mode' <;> decide +kernel

theorem keyPrefixToMode_presented (a : KeyIssue) (secret : Secret) :
    keyPrefixToMode (a.presented secret) = some a.mode := by
  have hmine : (modeToKeyPrefix a.mode).isPrefixOf (a.presented secret) = true :=
    List.isPrefixOf_iff_prefix.2 (List.prefix_append _ _)
  have hother : ∀ mode ≠ a.mode, (modeToKeyPrefix mode).isPrefixOf (a.presented secret) = false := by
    intro mode hmode
    rw [Bool.eq_false_iff, Ne, List.isPrefixOf_iff_prefix]
    intro hpre
    have hlength : (modeToKeyPrefix mode).length = (modeToKeyPrefix a.mode).length := by
      rw [length_modeToKeyPrefix, length_modeToKeyPrefix]
    have heq := (List.prefix_of_prefix_length_le hpre (List.prefix_append _ _)
      (le_of_eq hlength)).eq_of_length hlength
    exact hmode (modeToKeyPrefix_injective heq)
  unfold keyPrefixToMode
  cases hmode : a.mode with
  | production =>
    rw [hmode] at hmine
    simp [List.find?, hmine]
  | test =>
    have hlive := hother .production (by simp [hmode])
    rw [hmode] at hmine
    simp [List.find?, hlive, hmine]

theorem map_grantsFor {keyId : ℕ} (ds : List DeploymentRecord) :
    ((grantsFor keyId ds).filter fun g => g.apiKeyId = keyId).map KeyGrant.deploymentId =
      ds.map DeploymentRecord.id := by
  simp [grantsFor, List.filter_map, Function.comp_def]

/-- Grants of another key do not touch the row of a credential. -/
theorem Stands.append_other {grants gs : List KeyGrant} {k : ApiKeyRow} {c : Credential}
    (h : Stands hashKey grants k c) (hother : ∀ g ∈ gs, g.apiKeyId ≠ k.apiKeyId) :
    Stands hashKey (grants ++ gs) k c := by
  refine ⟨h.identity, h.hash, h.known, h.live, ?_⟩
  have hnone : gs.filter (fun g => g.apiKeyId = k.apiKeyId) = [] :=
    List.filter_eq_nil_iff.2 fun g hg => by simpa using hother g hg
  rw [List.filter_append, hnone, List.append_nil]
  exact h.granted

theorem Stands.revoke {grants : List KeyGrant} {k : ApiKeyRow} {c : Credential} {ref : String}
    {now : ℕ} (h : Stands hashKey grants k c) :
    Stands hashKey grants (k.revoke ref now) (c.revoke ref) := by
  obtain ⟨hidentity, hhash, hknown, hlive, hgranted⟩ := h
  have href : k.apiKeyRef = c.identity.apiKeyRef := by rw [← hidentity]
  refine ⟨?_, by simpa using hhash, by simpa using hknown, ?_, ?_⟩
  · rw [ApiKeyRow.revoke_identity, hidentity]
    unfold Credential.revoke
    split <;> rfl
  · unfold ApiKeyRow.revoke Credential.revoke ApiKeyRow.revocable
    rw [← href]
    by_cases hmatch : k.apiKeyRef = ref
    · by_cases hactive : k.apiKeyStatus = .active <;> simp [hmatch, hactive]
    · simpa [hmatch] using hlive
  · rw [ApiKeyRow.revoke_identity, hgranted]
    unfold Credential.revoke
    split <;> rfl

theorem Stands.grant {grants : List KeyGrant} {k : ApiKeyRow} {c : Credential} {ref : String}
    {g : KeyGrant} (h : Stands hashKey grants k c)
    (hkey : g.apiKeyId = k.apiKeyId ↔ k.apiKeyRef = ref)
    (hnew : k.apiKeyRef = ref → g.deploymentId ∉ c.granted) :
    Stands hashKey (grants ++ [g]) k (c.grant ref g.deploymentId) := by
  have href : k.apiKeyRef = c.identity.apiKeyRef := by rw [← h.identity]
  by_cases hmatch : k.apiKeyRef = ref
  · have hc : c.grant ref g.deploymentId = { c with granted := c.granted ++ [g.deploymentId] } := by
      rw [Credential.grant, if_pos ⟨href ▸ hmatch, hnew hmatch⟩]
    rw [hc]
    refine ⟨h.identity, h.hash, h.known, h.live, ?_⟩
    rw [List.filter_append, List.map_append, h.granted]
    simp [hkey.2 hmatch]
  · have hc : c.grant ref g.deploymentId = c := by
      rw [Credential.grant, if_neg]
      exact fun hboth => hmatch (href.trans hboth.1)
    rw [hc]
    apply h.append_other
    intro g' hg'
    rw [List.mem_singleton.1 hg']
    exact fun hid => hmatch (hkey.1 hid)

theorem Stands.granted_iff {k : ApiKeyRow} {c : Credential} (h : Stands hashKey t.grants k c)
    (workspaceId id : ℕ) : t.granted ⟨workspaceId, k.apiKeyId, id⟩ = true ↔ id ∈ c.granted := by
  rw [← h.granted, KeyTables.granted, List.any_eq_true, List.mem_map]
  constructor
  · rintro ⟨g, hg, hmatch⟩
    simp only [decide_eq_true_eq] at hmatch
    exact ⟨g, by simpa [hmatch.1] using hg, hmatch.2⟩
  · rintro ⟨g, hg, hid⟩
    obtain ⟨hg, hkey⟩ := List.mem_filter.1 hg
    simp only [decide_eq_true_eq] at hkey
    exact ⟨g, hg, by simp [hkey, hid]⟩

/-- A row is that of a reference just when it has the id of its row. -/
theorem KeyTables.Keyed.ref_iff (ht : t.Keyed) {k k' : ApiKeyRow} {ref : String}
    (hk : t.keyOf ref = some k) (hk' : k' ∈ t.keys) :
    k.apiKeyId = k'.apiKeyId ↔ k'.apiKeyRef = ref := by
  obtain ⟨hmem, href⟩ := keyOf_eq_some hk
  constructor
  · intro hid
    rw [← href, List.inj_on_of_nodup_map ht.ids hmem hk' hid]
  · intro href'
    rw [List.inj_on_of_nodup_map ht.refs hmem hk' (href.trans href'.symm)]

theorem forall₂_imp_mem {α β : Type} {R S : α → β → Prop} {xs : List α} {ys : List β}
    (h : List.Forall₂ R xs ys) (himp : ∀ x ∈ xs, ∀ y, R x y → S x y) : List.Forall₂ S xs ys := by
  induction h with
  | nil => exact .nil
  | cons hhead _ ih =>
    exact .cons (himp _ List.mem_cons_self _ hhead)
      (ih fun x hx => himp x (List.mem_cons_of_mem _ hx))

theorem KeyStep.represents (h : KeyStep hashKey t e t') (ht : t.Keyed) {K : Keyring}
    (hK : Represents hashKey t K) : Represents hashKey t' (K.apply e) := by
  unfold Represents at hK ⊢
  cases h with
  | issue h =>
    obtain ⟨ws, owner, ds, -, -, -, hds, -, -, hrow, rfl⟩ := (keyIssue_eq_ok ht).1 h
    rename_i a secret ref row
    have hid : row.apiKeyId = t.nextKey := by rw [hrow]; rfl
    apply List.rel_append
    · apply forall₂_imp_mem hK
      intro k hk c hstands
      apply hstands.append_other
      intro g hg
      obtain ⟨d, -, rfl⟩ := List.mem_map.1 hg
      have hlt := ht.id_lt k hk
      simp only
      omega
    · refine .cons ?_ .nil
      have hnone : t.grants.filter (fun g => g.apiKeyId = row.apiKeyId) = [] := by
        rw [List.filter_eq_nil_iff]
        intro g hg
        obtain ⟨⟨k, hk, hkid, -⟩, -⟩ := ht.grantable g hg
        have hlt := ht.id_lt k hk
        simp only [decide_eq_true_eq]
        omega
      refine ⟨rfl, by rw [hrow]; rfl, ?_, by simp [hrow, KeyIssue.row], ?_⟩
      · rw [keyPrefixToMode_presented, hrow]
        rfl
      · rw [List.filter_append, hnone, List.nil_append, map_grantsFor, mapM_eq_filterMap hds]
  | revoke h =>
    obtain ⟨-, rfl⟩ := keyRevoke_ok h
    rw [Keyring.apply, List.forall₂_map_left_iff, List.forall₂_map_right_iff]
    exact hK.imp fun _ _ hstands => hstands.revoke
  | grant h =>
    obtain ⟨k, d, hk, hd, rfl, hsame, ⟨hgranted, rfl⟩ | ⟨hgranted, rfl⟩⟩ := grantAdd_ok h
    · rename_i keyRef deploymentRef
      rw [Keyring.apply, List.forall₂_map_right_iff]
      apply forall₂_imp_mem hK
      intro k' hk' c hstands
      have hsame : c.grant keyRef d.id = c := by
        rw [Credential.grant, if_neg]
        rintro ⟨href, hnew⟩
        have hid := (ht.ref_iff hk hk').2 (by rw [hstands.identity]; exact href)
        rw [hid] at hgranted
        exact hnew ((hstands.granted_iff _ _).1 hgranted)
      rw [hsame]
      exact hstands
    · rw [Keyring.apply, List.forall₂_map_right_iff]
      apply forall₂_imp_mem hK
      intro k' hk' c hstands
      apply hstands.grant (ht.ref_iff hk hk')
      intro href hmem
      rw [(ht.ref_iff hk hk').2 href, (hstands.granted_iff _ _).2 hmem] at hgranted
      cases hgranted
  | configure => exact hK
  | populate => exact hK

/-- Tables without keys; what else they hold does not matter. -/
structure KeyTables.Fresh (t : KeyTables) : Prop where
  keys : t.keys = []
  grants : t.grants = []
  config : t.config.Keyed

theorem KeyTables.Fresh.keyed (h : t.Fresh) : t.Keyed := by
  obtain ⟨hkeys, hgrants, hconfig⟩ := h
  exact ⟨by simp [hkeys], by simp [hkeys], by simp [hkeys], by simp [hgrants], hconfig⟩

variable {s : KeyTables} {trace : List (KeyTables × KeyEvent)}

theorem keyed_of_run (hrun : Run (KeyStep hashKey) s trace t) (hs : s.Keyed) : t.Keyed :=
  (hrun.invariant hs fun _ _ _ hi hstep => hstep.keyed hi).1

theorem represents_of_run (hrun : Run (KeyStep hashKey) s trace t) (hs : s.Fresh) :
    Represents hashKey t (Keyring.after (trace.map Prod.snd)) := by
  apply Run.snocInduction (motive := fun trace t =>
    Represents hashKey t (Keyring.after (trace.map Prod.snd))) ?_ ?_ hrun
  · rw [Represents, hs.keys]
    exact .nil
  · intro trace t e u hfirst hstep ih
    rw [List.map_append, List.map_cons, List.map_nil, Keyring.after_snoc]
    exact hstep.represents (keyed_of_run hfirst hs.keyed) ih

/-- The first row of a hash is the first credential of a key, where the hash tells
the presented key from the others. -/
theorem find?_of_represents {grants : List KeyGrant} {keys : List ApiKeyRow} {K : Keyring}
    (h : List.Forall₂ (Stands hashKey grants) keys K) {presented : PyStr}
    (hhash : ∀ c ∈ K, hashKey c.key = hashKey presented → c.key = presented) :
    (keys.find? fun k => k.secretHash = hashKey presented) = none ∧
        (K.find? fun c => c.key = presented) = none ∨
      ∃ k c, (keys.find? fun k => k.secretHash = hashKey presented) = some k ∧
        (K.find? fun c => c.key = presented) = some c ∧ c.key = presented ∧
        Stands hashKey grants k c := by
  induction h with
  | nil => exact Or.inl ⟨rfl, rfl⟩
  | @cons k c keys K hstands _ ih =>
    obtain ⟨hfirst, hrest⟩ := List.forall_mem_cons.1 hhash
    by_cases hkey : c.key = presented
    · refine Or.inr ⟨k, c, ?_, ?_, hkey, hstands⟩
      · rw [List.find?_cons_of_pos (by simp [hstands.hash, hkey])]
      · rw [List.find?_cons_of_pos (by simp [hkey])]
    · have hdiffer : k.secretHash ≠ hashKey presented := by
        rw [hstands.hash]
        exact fun hsame => hkey (hfirst hsame)
      rw [List.find?_cons_of_neg (by simp [hdiffer]), List.find?_cons_of_neg (by simp [hkey])]
      exact ih hrest

theorem Stands.principal {grants : List KeyGrant} {k : ApiKeyRow} {c : Credential}
    (h : Stands hashKey grants k c) : k.principal grants = c.principal := by
  obtain ⟨hidentity, -, -, -, hgranted⟩ := h
  rw [ApiKeyRow.principal, Credential.principal, hgranted, hidentity]

/-- After any run `resolve_key` answers as the keyring of its events does: with
the identity a key was issued under and the deployments it was granted since, from
its issue to its revocation and only where its mode serves. -/
theorem resolveKey_refines_keyring (hrun : Run (KeyStep hashKey) s trace t) (hs : s.Fresh)
    (env : ServerEnvironment) {presented : PyStr}
    (hhash : ∀ key ∈ issuedKeys (trace.map Prod.snd),
      hashKey key = hashKey presented → key = presented) :
    (resolveKey hashKey env presented t).mapError AuthError.code =
      (Keyring.after (trace.map Prod.snd)).authenticate env presented := by
  have hrep := represents_of_run hrun hs
  have hkeys : ∀ c ∈ Keyring.after (trace.map Prod.snd),
      hashKey c.key = hashKey presented → c.key = presented := by
    intro c hc
    apply hhash
    rw [← Keyring.map_key_after]
    exact List.mem_map_of_mem hc
  unfold resolveKey lookupKey Keyring.authenticate
  rcases find?_of_represents hrep hkeys with ⟨hrow, hcredential⟩ | ⟨k, c, hrow, hcredential, hkey, hstands⟩
  · rw [hrow, hcredential]
    cases keyPrefixToMode presented <;> rfl
  · have hknown : keyPrefixToMode presented = some k.mode := hkey ▸ hstands.known
    have hmode : k.mode = c.identity.mode := by rw [← hstands.identity]
    rw [hrow, hcredential, hknown]
    simp only [← hmode]
    by_cases hlive : c.live = false
    · have hrevoked : k.apiKeyStatus ≠ .active := by
        intro hactive
        rw [hstands.live.1 hactive] at hlive
        cases hlive
      rw [if_pos hrevoked, if_pos hlive]
      rfl
    · have hactive : k.apiKeyStatus = .active := hstands.live.2 (by simpa using hlive)
      rw [if_neg (not_not.2 hactive), if_neg hlive]
      by_cases henv : k.mode = env.expectedMode
      · rw [if_neg (not_not.2 henv), if_neg (not_not.2 henv), ← hstands.principal]
        rfl
      · rw [if_pos henv, if_pos henv]
        rfl

/-! ### From issue to revocation -/

theorem Credential.revoke_of_ne {ref : String} {c : Credential} (h : c.identity.apiKeyRef ≠ ref) :
    c.revoke ref = c := by
  rw [Credential.revoke, if_neg h]

theorem Credential.grant_keeps (ref : String) (id : ℕ) (c : Credential) :
    (c.grant ref id).identity = c.identity ∧ (c.grant ref id).live = c.live ∧
      c.granted ⊆ (c.grant ref id).granted := by
  unfold Credential.grant
  split
  · exact ⟨rfl, rfl, List.subset_append_left _ _⟩
  · exact ⟨rfl, rfl, List.Subset.refl _⟩

theorem find?_map_key {f : Credential → Credential} (hf : ∀ c, (f c).key = c.key) {K : Keyring}
    {p : PyStr} {c : Credential} (h : (K.find? fun c => c.key = p) = some c) :
    ((K.map f).find? fun c => c.key = p) = some (f c) := by
  have hcomp : (fun c : Credential => decide (c.key = p)) ∘ f = fun c => decide (c.key = p) := by
    funext c
    simp [hf]
  rw [List.find?_map, hcomp, h]
  rfl

/-- A credential that no later event revokes stays live and loses no deployment. -/
theorem find?_after_issued {events later : List KeyEvent} {p : PyStr} {identity : KeyIdentity}
    {ids : List ℕ} (hnew : p ∉ issuedKeys events)
    (hlater : ∀ e ∈ later, e ≠ .revoked identity.apiKeyRef) :
    ∃ c, ((Keyring.after (events ++ .issued p identity ids :: later)).find? fun c => c.key = p) =
        some c ∧ c.identity = identity ∧ c.live = true ∧ ids ⊆ c.granted := by
  induction later using List.reverseRecOn with
  | nil =>
    refine ⟨⟨p, identity, true, ids⟩, ?_, rfl, rfl, List.Subset.refl _⟩
    have hnone : ((Keyring.after events).find? fun c => c.key = p) = none := by
      rw [List.find?_eq_none]
      intro c hc hkey
      apply hnew
      simp only [decide_eq_true_eq] at hkey
      rw [← Keyring.map_key_after, ← hkey]
      exact List.mem_map_of_mem hc
    rw [Keyring.after_snoc, Keyring.apply, List.find?_append, hnone]
    simp
  | append_singleton later e ih =>
    obtain ⟨c, hfind, hidentity, hlive, hids⟩ :=
      ih fun e he => hlater e (List.mem_append_left _ he)
    have he := hlater e (by simp)
    rw [← List.cons_append, ← List.append_assoc, Keyring.after_snoc]
    cases e with
    | issued q identity' ids' =>
      refine ⟨c, ?_, hidentity, hlive, hids⟩
      rw [Keyring.apply, List.find?_append, hfind]
      rfl
    | revoked ref =>
      have href : c.identity.apiKeyRef ≠ ref := by
        intro hsame
        apply he
        rw [← hsame, hidentity]
      refine ⟨c, ?_, hidentity, hlive, hids⟩
      rw [Keyring.apply, find?_map_key (Credential.revoke_key ref) hfind, c.revoke_of_ne href]
    | granted ref id =>
      obtain ⟨hsame, hstays, hgrows⟩ := c.grant_keeps ref id
      refine ⟨c.grant ref id, ?_, hsame.trans hidentity, hstays.trans hlive,
        List.Subset.trans hids hgrows⟩
      rw [Keyring.apply, find?_map_key (Credential.grant_key ref id) hfind]
    | other => exact ⟨c, hfind, hidentity, hlive, hids⟩

theorem not_isSpace_presented (a : KeyIssue) (secret : Secret) :
    ∀ c ∈ a.presented secret, isSpace c = false := by
  intro c hc
  rcases List.mem_append.1 hc with hc | hc
  · have hplain : (modeToKeyPrefix a.mode).all (fun c => !isSpace c) = true := by
      cases a.mode <;> decide +kernel
    simpa using List.all_eq_true.1 hplain c hc
  · obtain ⟨n, rfl⟩ := secret.hex c hc
    have hdigits : ∀ m < 16, isSpace (hexDigit m) = false := by
      decide +kernel
    have hmod : hexDigit n = hexDigit (n % 16) := by simp [hexDigit]
    rw [hmod]
    exact hdigits _ (Nat.mod_lt _ (by decide))

/-- The token of a header is the printed key. -/
theorem extractBearer_presented (a : KeyIssue) (secret : Secret) :
    extractBearer (some (py "Bearer " ++ a.presented secret)) = .ok (a.presented secret) := by
  have hlower : (py "Bearer ").map lowerLatin1 = py "bearer " := by decide +kernel
  have hscheme : (py "bearer ").isPrefixOf
      ((py "Bearer " ++ a.presented secret).map lowerLatin1) = true := by
    rw [List.map_append, hlower, List.isPrefixOf_iff_prefix]
    exact List.prefix_append _ _
  have hdrop : (py "Bearer " ++ a.presented secret).drop 7 = a.presented secret :=
    List.drop_left' (by decide +kernel)
  have hne : a.presented secret ≠ [] := by
    unfold KeyIssue.presented
    cases a.mode <;> simp [modeToKeyPrefix, py]
  simp only [extractBearer, hscheme, if_true, hdrop, strip_eq_self (not_isSpace_presented a secret),
    if_neg hne]

/-- The key `key issue` prints authenticates where its mode serves, under the
identity it was issued with and the deployments it was issued for, after any run in
which its reference is not revoked. -/
theorem issued_key_serves (hs : s.Fresh) (hrun : Run (KeyStep hashKey) s trace t)
    {a : KeyIssue} {secret : Secret} {ref : String} {row : ApiKeyRow}
    (hissue : keyIssue hashKey a secret ref t = .ok (row, t'))
    {trace' : List (KeyTables × KeyEvent)} {u : KeyTables}
    (hrun' : Run (KeyStep hashKey) t' trace' u) (hkept : ∀ x ∈ trace', x.2 ≠ .revoked ref)
    (hnew : a.presented secret ∉ issuedKeys (trace.map Prod.snd))
    (hhash : ∀ key ∈ issuedKeys ((trace ++ trace').map Prod.snd),
      hashKey key = hashKey (a.presented secret) → key = a.presented secret)
    (env : ServerEnvironment) (hmode : a.mode = env.expectedMode) :
    ∃ p, requirePrincipal hashKey env (some (py "Bearer " ++ a.presented secret)) u = .ok p ∧
      p.toKeyIdentity = row.toKeyIdentity ∧
      (a.scope = .deployment → ∀ dref ∈ a.deploymentRefs, ∀ d, t.deploymentOf dref = some d →
        d.id ∈ p.grantedDeploymentIds) := by
  have ht := keyed_of_run hrun hs.keyed
  obtain ⟨ws, owner, ds, -, -, -, -, -, -, hrow, -⟩ := (keyIssue_eq_ok ht).1 hissue
  have href : row.apiKeyRef = ref := by rw [hrow]; rfl
  have hrowMode : row.mode = a.mode := by rw [hrow]; rfl
  have hrowScope : row.scope = a.scope := by rw [hrow]; rfl
  have hlater : ∀ e ∈ trace'.map Prod.snd, e ≠ .revoked row.apiKeyRef := by
    intro e he
    obtain ⟨x, hx, rfl⟩ := List.mem_map.1 he
    rw [href]
    exact hkept x hx
  obtain ⟨c, hfind, hidentity, hlive, hids⟩ := @find?_after_issued (trace.map Prod.snd)
    (trace'.map Prod.snd) (a.presented secret) row.toKeyIdentity
      ((a.deploymentRefs.filterMap t.deploymentOf).map DeploymentRecord.id) hnew hlater
  have hkeys : ∀ key ∈ issuedKeys ((trace ++ (t, .issued (a.presented secret) row.toKeyIdentity
      ((a.deploymentRefs.filterMap t.deploymentOf).map DeploymentRecord.id)) :: trace').map
        Prod.snd), hashKey key = hashKey (a.presented secret) → key = a.presented secret := by
    intro key hkey
    rw [List.map_append, issuedKeys_append] at hhash
    rw [List.map_append, List.map_cons, issuedKeys_append, issuedKeys_issued, List.mem_append,
      List.mem_cons] at hkey
    rcases hkey with hkey | rfl | hkey
    · exact hhash key (List.mem_append_left _ hkey)
    · exact fun _ => rfl
    · exact hhash key (List.mem_append_right _ hkey)
  have hrefines := resolveKey_refines_keyring
    (hrun.append (.head (KeyStep.issue hissue) hrun')) hs env hkeys
  have hauthenticates : (Keyring.after ((trace ++ (t, .issued (a.presented secret)
      row.toKeyIdentity ((a.deploymentRefs.filterMap t.deploymentOf).map
        DeploymentRecord.id)) :: trace').map Prod.snd)).authenticate env (a.presented secret) =
      .ok c.principal := by
    have hserves : c.identity.mode = env.expectedMode := by rw [hidentity, hrowMode, hmode]
    unfold Keyring.authenticate
    rw [List.map_append, List.map_cons, hfind]
    simp [hlive, hserves]
  rw [hauthenticates] at hrefines
  cases hresolve : resolveKey hashKey env (a.presented secret) u with
  | error err =>
    rw [hresolve] at hrefines
    cases hrefines
  | ok p =>
    rw [hresolve] at hrefines
    obtain rfl : p = c.principal := Except.ok.inj hrefines
    refine ⟨c.principal, ?_, hidentity, ?_⟩
    · rw [requirePrincipal, extractBearer_presented]
      exact hresolve
    · intro hscope dref hdref d hd
      have hdeployment : c.identity.scope = .deployment := by rw [hidentity, hrowScope, hscope]
      rw [Credential.principal, if_pos hdeployment]
      apply hids
      apply List.mem_map_of_mem
      exact List.mem_filterMap.2 ⟨dref, hdref, hd⟩

/-! ### A key of one deployment -/

/-- A workspace with a member and a deployment, and a second workspace. -/
def acmeTables : KeyTables where
  workspaces := [⟨1, "ws_prod"⟩, ⟨2, "ws_other"⟩]
  members := [⟨5, some 1, "u_admin"⟩]
  config := assistantTables
  keys := []
  grants := []
  nextKey := 1

theorem acmeTables_fresh : acmeTables.Fresh :=
  ⟨rfl, rfl, registers_assistant.keyed noDeployments_keyed⟩

def zeroSecret : Secret where
  text := List.replicate 32 (hexDigit 0)
  hex := fun _ hc => ⟨0, List.eq_of_mem_replicate hc⟩
  length_eq := List.length_replicate

/-- A production key of the one deployment. -/
def scopedIssue : KeyIssue :=
  ⟨"ws_prod", "u_admin", .production, .deployment, ["finance_params"], ["dep_1"]⟩

def scopedRow : ApiKeyRow := scopedIssue.row id zeroSecret "ak_1" 1 1 5

def scopedTables : KeyTables := { acmeTables with
  keys := [scopedRow]
  grants := [⟨1, 1, 1⟩]
  nextKey := 2 }

theorem issues_scoped :
    keyIssue id scopedIssue zeroSecret "ak_1" acmeTables = .ok (scopedRow, scopedTables) :=
  (keyIssue_eq_ok acmeTables_fresh.keyed).2 ⟨⟨1, "ws_prod"⟩, ⟨5, some 1, "u_admin"⟩,
    assistantTables.deployments, by decide +kernel, by decide +kernel, rfl, by decide +kernel,
    by decide +kernel, by decide +kernel, rfl, rfl⟩

/-- The key of a deployment is granted it. -/
theorem keyIssue_eq_ok_scoped : ∃ row t', keyIssue id scopedIssue zeroSecret "ak_1" acmeTables =
    .ok (row, t') ∧ t'.grants = [⟨row.workspaceId, row.apiKeyId, 1⟩] :=
  ⟨_, _, (keyIssue_eq_ok acmeTables_fresh.keyed).2 ⟨⟨1, "ws_prod"⟩, ⟨5, some 1, "u_admin"⟩,
    assistantTables.deployments, by decide +kernel, by decide +kernel, rfl, by decide +kernel,
    by decide +kernel, by decide +kernel, rfl, rfl⟩, rfl⟩

/-- The issued key authenticates in production, with its deployment. -/
theorem resolveKey_refines_keyring_scoped :
    (resolveKey id .production (scopedIssue.presented zeroSecret) scopedTables).mapError
        AuthError.code =
      (Keyring.after [.issued (scopedIssue.presented zeroSecret) scopedRow.toKeyIdentity [1]]).authenticate
        .production (scopedIssue.presented zeroSecret) := by
  have hrefines := @resolveKey_refines_keyring id _ _ _ (.single (.issue issues_scoped))
    acmeTables_fresh .production (scopedIssue.presented zeroSecret) (fun _ _ h => h)
  have hids : (scopedIssue.deploymentRefs.filterMap acmeTables.deploymentOf).map
      DeploymentRecord.id = [1] := by decide +kernel
  rw [List.map_cons, List.map_nil, hids] at hrefines
  exact hrefines

/-- The header of a client serves while other members join. -/
theorem issued_key_serves_scoped : ∃ p, requirePrincipal id .production
    (some (py "Bearer " ++ scopedIssue.presented zeroSecret))
      { scopedTables with workspaces := [⟨1, "ws_prod"⟩], members := [] } = .ok p ∧
    1 ∈ p.grantedDeploymentIds := by
  obtain ⟨p, hp, -, hgranted⟩ := issued_key_serves acmeTables_fresh (.refl _) issues_scoped
    (.single (.populate [⟨1, "ws_prod"⟩] [])) (by simp) (by simp [issuedKeys]) (fun _ _ h => h)
    .production rfl
  exact ⟨p, hp, hgranted rfl "dep_1" (by decide +kernel)
    ⟨1, 1, .saasTool, .measured, .active, "dep_1", "Assistant", some "crm-7", none⟩
    (by decide +kernel)⟩

end TrueFigure.Server
