import Mathlib.Data.List.Infix
import TrueFigure.Library.Runs
import TrueFigure.Server.Deployments

/-!
# The life of a deployment

`update_deployment`, `list_deployments` and `get_deployment` of
`api/routes/config_plane.py` beside `register_deployment`. A deployment keeps
everything but its name and its planned rollout, so its reference resolves to
the same deployment after any number of requests.
-/
namespace TrueFigure.Server

open TrueFigure.Library TrueFigure.Python

/-- A request body. -/
structure DeploymentUpdate where
  name : Option String
  plannedRolloutAt : Option String
  /-- "present only to reject it (TF-CFG-006)" -/
  type : Option String

/-- What `update_deployment` raises. -/
inductive UpdateFailure
  | immutableField
  | failed (e : Failure)
  deriving DecidableEq

/-- `TF-CFG-006`. -/
def immutableFieldError : ErrorObject where
  code := py "TF-CFG-006"
  name := py "IMMUTABLE_FIELD"
  message := py "Field cannot change after events exist for the deployment (e.g., type). " ++
    py "Register a new deployment instead."
  retryable := false
  fieldPath := some (py "type")
  detail := some (py "deployment_type immutable once events exist")

def UpdateFailure.answer {α : Type} : UpdateFailure → Answer α
  | .immutableField => ⟨409, none, [immutableFieldError]⟩
  | .failed e => e.answer

/-- The statement of `update_deployment` with the columns it sets. -/
def DeploymentRecord.set (name : Option String) (plannedRolloutAt : Option ℤ)
    (d : DeploymentRecord) : DeploymentRecord :=
  { d with
    name := name.getD d.name
    plannedRolloutAt := plannedRolloutAt.or d.plannedRolloutAt }

/-- The transaction of `update_deployment`, which also says whether it answers
`updated`; `hasEvents` is whether events of the deployment exist. -/
def updateDeployment (timestamptz : String → Option ℤ) (principal : Principal) (wireId : String)
    (body : DeploymentUpdate) (hasEvents : ℕ → Bool) (t : DeploymentTables) :
    Except UpdateFailure (Bool × DeploymentTables) :=
  match resolveDeployment principal wireId t.deployments with
  | .error e => .error (.failed e)
  | .ok d =>
    -- `body.type` is free text; under a type that differs nothing is set either
    if body.type.any (fun type => type ≠ d.deploymentType.wire) && hasEvents d.id then
      .error .immutableField
    else
      match bindOptional body.name, bindTimestamp timestamptz body.plannedRolloutAt with
      | .error e, _ => .error (.failed e)
      | _, .error e => .error (.failed e)
      | .ok name, .ok plannedRolloutAt =>
        .ok ((given body.name).isSome || (given body.plannedRolloutAt).isSome,
          { t with deployments := t.deployments.map fun e =>
              if e.id = d.id then e.set name plannedRolloutAt else e })

/-- `PATCH /v1/deployments/{deployment_id}`. -/
def patchDeployment (timestamptz : String → Option ℤ) (principal : Principal) (wireId : String)
    (body : DeploymentUpdate) (hasEvents : ℕ → Bool) (t : DeploymentTables) :
    Answer (String × Bool) × DeploymentTables :=
  match updateDeployment timestamptz principal wireId body hasEvents t with
  | .ok (updated, t') => (⟨200, some (wireId, updated), []⟩, t')
  | .error e => (e.answer, t)

/-- `list_deployments`; the rows stand in the order of their ids. -/
def listDeployments (principal : Principal) (t : DeploymentTables) : List DeploymentRecord :=
  t.deployments.filter fun d => d.workspaceId = principal.workspaceId

def getDeployment (principal : Principal) (wireId : String) (t : DeploymentTables) :
    Except Failure DeploymentRecord :=
  resolveDeployment principal wireId t.deployments

/-! ### What stays -/

/-- The columns no request sets again. -/
structure FixedColumns where
  id : ℕ
  workspaceId : ℕ
  deploymentType : DeploymentType
  deploymentMode : DeploymentMode
  deploymentStatus : DeploymentStatus
  deploymentRef : String
  externalRef : Option String
  deriving DecidableEq

def DeploymentRecord.fixed (d : DeploymentRecord) : FixedColumns where
  id := d.id
  workspaceId := d.workspaceId
  deploymentType := d.deploymentType
  deploymentMode := d.deploymentMode
  deploymentStatus := d.deploymentStatus
  deploymentRef := d.deploymentRef
  externalRef := d.externalRef

@[simp] theorem DeploymentRecord.fixed_set (name : Option String) (plannedRolloutAt : Option ℤ)
    (d : DeploymentRecord) : (d.set name plannedRolloutAt).fixed = d.fixed := rfl

namespace DeploymentTables

variable (t : DeploymentTables)

def fixed : List FixedColumns := t.deployments.map DeploymentRecord.fixed

/-- The keys of `deployments`. -/
structure Keyed : Prop where
  id_lt : ∀ d ∈ t.fixed, d.id < t.nextId
  ids : (t.fixed.map FixedColumns.id).Nodup
  refs : (t.fixed.map FixedColumns.deploymentRef).Nodup
  externalRefs : t.fixed.Pairwise fun d e =>
    d.workspaceId = e.workspaceId → d.externalRef.isSome → d.externalRef ≠ e.externalRef

theorem Keyed.nodup_refs {t : DeploymentTables} (h : t.Keyed) :
    (t.deployments.map DeploymentRecord.deploymentRef).Nodup := by
  have hrefs := h.refs
  rw [fixed, List.map_map] at hrefs
  exact hrefs

end DeploymentTables

variable {timestamptz : String → Option ℤ} {t t' : DeploymentTables} {principal : Principal}
  {wireId : String}

theorem resolveDeployment_map_fixed (principal : Principal) (wireId : String)
    (ds : List DeploymentRecord) :
    (resolveDeployment principal wireId ds).map DeploymentRecord.fixed =
      (bindText wireId).bind fun ref =>
        match (ds.map DeploymentRecord.fixed).find? fun d =>
            d.deploymentRef = ref ∧ d.workspaceId = principal.workspaceId with
        | none => .error (.tfError ⟨.evt002, none, some (py ("unknown deployment " ++ wireId))⟩)
        | some d =>
          if principal.mayTouch d.id then .ok d
          else .error (.tfError ⟨.auth002, none,
            some (py ("key not scoped to deployment " ++ toString d.id))⟩) := by
  cases hbind : bindText wireId with
  | error e => simp [resolveDeployment, hbind, Bind.bind, Except.bind, Except.map]
  | ok ref =>
    simp only [resolveDeployment, hbind, Bind.bind, Except.bind, List.find?_map]
    have hcomp : (fun d : FixedColumns => decide (d.deploymentRef = ref ∧
          d.workspaceId = principal.workspaceId)) ∘ DeploymentRecord.fixed =
        fun d => decide (d.deploymentRef = ref ∧ d.workspaceId = principal.workspaceId) := rfl
    rw [hcomp]
    cases ds.find? fun d => d.deploymentRef = ref ∧ d.workspaceId = principal.workspaceId with
    | none => rfl
    | some d =>
      simp only [Option.map_some]
      have hid : d.fixed.id = d.id := rfl
      rw [hid]
      split <;> rfl

/-- An update leaves the fixed columns and the sequence alone. -/
theorem updateDeployment_ok {body : DeploymentUpdate} {hasEvents : ℕ → Bool} {updated : Bool}
    (h : updateDeployment timestamptz principal wireId body hasEvents t = .ok (updated, t')) :
    t'.fixed = t.fixed ∧ t'.nextId = t.nextId := by
  unfold updateDeployment at h
  split at h
  · cases h
  · rename_i d _
    split_ifs at h
    split at h
    · cases h
    · cases h
    · rename_i name plannedRolloutAt _ _
      obtain ⟨-, rfl⟩ := Prod.mk.inj (Except.ok.inj h)
      refine ⟨?_, rfl⟩
      simp only [DeploymentTables.fixed, List.map_map]
      apply List.map_congr_left
      intro e _
      simp only [Function.comp_apply]
      split
      · exact e.fixed_set name plannedRolloutAt
      · rfl

theorem linkServiceUsers_nextId {workspaceId id : ℕ} {srefs : List String}
    (h : t.linkServiceUsers workspaceId id srefs = .ok t') : t'.nextId = t.nextId := by
  induction srefs generalizing t with
  | nil =>
    cases h
    rfl
  | cons sref srefs ih =>
    obtain ⟨sref', -, h⟩ := bind_eq_ok h
    split at h
    · cases h
    · dsimp only at h
      split_ifs at h
      have hrest := ih h
      exact hrest

theorem insertDeployment_free {d : DeploymentRecord} (h : t.insertDeployment d = .ok t') :
    ∀ e ∈ t.deployments, e.deploymentRef ≠ d.deploymentRef ∧
      (e.workspaceId = d.workspaceId → d.externalRef.isSome → e.externalRef ≠ d.externalRef) := by
  unfold DeploymentTables.insertDeployment at h
  split_ifs at h with htaken
  intro e he
  constructor
  · intro href
    exact htaken (List.any_eq_true.2 ⟨e, he, by simp [href]⟩)
  · intro hworkspace hsome hexternal
    exact htaken (List.any_eq_true.2 ⟨e, he, by simp [hworkspace, hsome, hexternal]⟩)

/-- A registration adds one deployment, under keys that were free. -/
theorem registerDeployment_appends {workspaceId : ℕ} {body : DeploymentCreate} {ref : String}
    {reply : DeploymentReply}
    (h : registerDeployment timestamptz workspaceId body ref t = .ok (reply, t')) :
    ∃ d : DeploymentRecord, t'.deployments = t.deployments ++ [d] ∧ t'.nextId = t.nextId + 1 ∧
      d.id = t.nextId ∧ d.workspaceId = workspaceId ∧ d.deploymentRef = ref ∧
      ∀ e ∈ t.deployments, e.deploymentRef ≠ d.deploymentRef ∧
        (e.workspaceId = d.workspaceId → d.externalRef.isSome →
          e.externalRef ≠ d.externalRef) := by
  obtain ⟨type, -, h⟩ := bind_eq_ok h
  obtain ⟨wanted, -, h⟩ := bind_eq_ok h
  split at h
  · cases h
  · obtain ⟨name, -, h⟩ := bind_eq_ok h
    obtain ⟨externalRef, -, h⟩ := bind_eq_ok h
    obtain ⟨plannedRolloutAt, -, h⟩ := bind_eq_ok h
    obtain ⟨inserted, hinserted, h⟩ := bind_eq_ok h
    obtain ⟨linked, hlinked, h⟩ := bind_eq_ok h
    obtain ⟨rfl, rfl⟩ := Prod.mk.inj (Except.ok.inj h)
    have hfree := insertDeployment_free hinserted
    obtain rfl := insertDeployment_ok hinserted
    exact ⟨_, linkServiceUsers_deployments hlinked, linkServiceUsers_nextId hlinked, rfl, rfl, rfl,
      hfree⟩

/-! ### Runs -/

/-- A request that changes a deployment and commits, under the principal of any key. -/
inductive DeploymentStep (timestamptz : String → Option ℤ) :
    DeploymentTables → Principal → DeploymentTables → Prop
  | register {t t' : DeploymentTables} {principal : Principal} {body : DeploymentCreate}
      {ref : String} {reply : DeploymentReply}
      (h : registerDeployment timestamptz principal.workspaceId body ref t = .ok (reply, t')) :
      DeploymentStep timestamptz t principal t'
  | update {t t' : DeploymentTables} {principal : Principal} {wireId : String}
      {body : DeploymentUpdate} {hasEvents : ℕ → Bool} {updated : Bool}
      (h : updateDeployment timestamptz principal wireId body hasEvents t = .ok (updated, t')) :
      DeploymentStep timestamptz t principal t'

namespace DeploymentStep

/-- A step adds at most one deployment, at the end and under the next id. -/
theorem appends (h : DeploymentStep timestamptz t principal t') :
    t.fixed = t'.fixed ∧ t'.nextId = t.nextId ∨
      ∃ d : FixedColumns, t'.fixed = t.fixed ++ [d] ∧ t'.nextId = t.nextId + 1 ∧
        d.id = t.nextId ∧ d.workspaceId = principal.workspaceId ∧
        ∀ e ∈ t.fixed, e.deploymentRef ≠ d.deploymentRef ∧
          (e.workspaceId = d.workspaceId → d.externalRef.isSome →
            e.externalRef ≠ d.externalRef) := by
  cases h with
  | register h =>
    obtain ⟨d, happ, hnext, hid, hworkspace, -, hfree⟩ := registerDeployment_appends h
    refine Or.inr ⟨d.fixed, ?_, hnext, hid, hworkspace, ?_⟩
    · rw [DeploymentTables.fixed, happ, List.map_append]
      rfl
    · intro e he
      obtain ⟨r, hr, rfl⟩ := List.mem_map.1 he
      exact hfree r hr
  | update h =>
    obtain ⟨hfixed, hnext⟩ := updateDeployment_ok h
    exact Or.inl ⟨hfixed.symm, hnext⟩

theorem grows (h : DeploymentStep timestamptz t principal t') : t.fixed <+: t'.fixed := by
  rcases h.appends with ⟨hfixed, -⟩ | ⟨d, hfixed, -⟩
  · rw [hfixed]
  · exact ⟨[d], hfixed.symm⟩

theorem keyed (h : DeploymentStep timestamptz t principal t') (ht : t.Keyed) : t'.Keyed := by
  rcases h.appends with ⟨hfixed, hnext⟩ | ⟨d, hfixed, hnext, hid, -, hfree⟩
  · exact ⟨by rw [← hfixed, hnext]; exact ht.id_lt, hfixed ▸ ht.ids, hfixed ▸ ht.refs,
      hfixed ▸ ht.externalRefs⟩
  · constructor
    · intro e he
      rw [hfixed] at he
      rcases List.mem_append.1 he with he | he
      · have := ht.id_lt e he
        omega
      · obtain rfl := List.mem_singleton.1 he
        omega
    · rw [hfixed, List.map_append, List.nodup_append]
      refine ⟨ht.ids, by simp, ?_⟩
      intro i hi j hj
      obtain ⟨e, he, rfl⟩ := List.mem_map.1 hi
      have hlt := ht.id_lt e he
      simp only [List.map_cons, List.map_nil, List.mem_singleton] at hj
      omega
    · rw [hfixed, List.map_append, List.nodup_append]
      refine ⟨ht.refs, by simp, ?_⟩
      intro r hr s hs
      obtain ⟨e, he, rfl⟩ := List.mem_map.1 hr
      simp only [List.map_cons, List.map_nil, List.mem_singleton] at hs
      rw [hs]
      exact (hfree e he).1
    · rw [hfixed, List.pairwise_append]
      refine ⟨ht.externalRefs, List.pairwise_singleton _ _, ?_⟩
      intro e he f hf hworkspace hsome hexternal
      obtain rfl := List.mem_singleton.1 hf
      exact (hfree e he).2 hworkspace (hexternal ▸ hsome) hexternal

end DeploymentStep

/-- What a reference resolves to stays when deployments are added. -/
theorem find?_of_grows {ds ds' : List FixedColumns} {d : FixedColumns} {p : FixedColumns → Bool}
    (hgrows : ds <+: ds') (h : ds.find? p = some d) : ds'.find? p = some d := by
  obtain ⟨added, rfl⟩ := hgrows
  rw [List.find?_append, h]
  rfl

theorem resolveDeployment_of_grows (hgrows : t.fixed <+: t'.fixed) {d : DeploymentRecord}
    (h : resolveDeployment principal wireId t.deployments = .ok d) :
    ∃ d', resolveDeployment principal wireId t'.deployments = .ok d' ∧ d'.fixed = d.fixed := by
  have hold := resolveDeployment_map_fixed principal wireId t.deployments
  have hnew := resolveDeployment_map_fixed principal wireId t'.deployments
  rw [h] at hold
  obtain ⟨ref, hbind, hold⟩ := bind_eq_ok hold.symm
  rw [hbind] at hnew
  simp only [Except.bind] at hnew
  split at hold
  · cases hold
  · rename_i c hfound
    rw [show t'.deployments.map DeploymentRecord.fixed = t'.fixed from rfl,
      find?_of_grows hgrows hfound] at hnew
    simp only at hold hnew
    split_ifs at hold hnew with htouch
    obtain ⟨d', hd', hfixed⟩ := map_eq_ok hnew
    exact ⟨d', hd', by rw [hfixed]; exact (Except.ok.inj hold)⟩

/-- Over any requests of any principals the keys of the deployments stay, no
deployment loses or changes a fixed column, and what a principal's reference
resolves to is the same deployment ever after. -/
theorem deployments_stable {s : DeploymentTables} {trace : List (DeploymentTables × Principal)}
    (hrun : Run (DeploymentStep timestamptz) s trace t) (hs : s.Keyed) :
    t.Keyed ∧ s.fixed <+: t.fixed ∧
      ∀ principal wireId d, resolveDeployment principal wireId s.deployments = .ok d →
        ∃ d', resolveDeployment principal wireId t.deployments = .ok d' ∧ d'.fixed = d.fixed := by
  have hinv := hrun.invariant (I := fun u => u.Keyed ∧ s.fixed <+: u.fixed)
    ⟨hs, List.prefix_rfl⟩ fun _ _ _ hi hstep =>
      ⟨hstep.keyed hi.1, hi.2.trans hstep.grows⟩
  obtain ⟨⟨hkeyed, hgrows⟩, -⟩ := hinv
  exact ⟨hkeyed, hgrows, fun principal wireId d hd => resolveDeployment_of_grows hgrows hd⟩

def noDeployments : DeploymentTables := ⟨[], [], [], 1⟩

theorem noDeployments_keyed : noDeployments.Keyed :=
  ⟨by simp [noDeployments, DeploymentTables.fixed], by simp [noDeployments, DeploymentTables.fixed],
    by simp [noDeployments, DeploymentTables.fixed], by simp [noDeployments, DeploymentTables.fixed]⟩

def workspaceOne : Principal := ⟨1, .production, .workspace, []⟩

/-- The tables after `POST /v1/deployments` for an assistant. -/
def assistantTables : DeploymentTables :=
  ⟨[⟨1, 1, .saasTool, .measured, .active, "dep_1", "Assistant", some "crm-7", none⟩], [], [], 2⟩

theorem registers_assistant :
    DeploymentStep (fun _ => none) noDeployments workspaceOne assistantTables := by
  have hregister : registerDeployment (fun _ => none) workspaceOne.workspaceId
      ⟨"Assistant", "saas_tool", some "crm-7", none, []⟩ "dep_1" noDeployments =
        .ok (⟨"dep_1", .saasTool, .measured⟩, assistantTables) := by decide +kernel
  exact .register hregister

/-- A registration, then a PATCH that names another type before any event. -/
theorem deployments_stable_assistant : ∃ t : DeploymentTables, t.Keyed ∧ noDeployments.fixed <+: t.fixed ∧
    t.deployments.map DeploymentRecord.name = ["Copilot"] := by
  have hupdate : updateDeployment (fun _ => none) workspaceOne "dep_1"
      ⟨some "Copilot", none, some "agent"⟩ (fun _ => false) assistantTables = .ok (true,
        ⟨[⟨1, 1, .saasTool, .measured, .active, "dep_1", "Copilot", some "crm-7", none⟩], [], [],
          2⟩) := by decide +kernel
  obtain ⟨hkeyed, hgrows, -⟩ := deployments_stable
    (.head registers_assistant (.single (.update hupdate))) noDeployments_keyed
  exact ⟨_, hkeyed, hgrows, rfl⟩

end TrueFigure.Server
