import TrueFigure.Sdk.Transport

/-!
# Registering a deployment again

`register_deployment` of the client against the server. The server answers a
reference it knows with an error that names the deployment in its `detail`; the
client raises that error and does not read the detail. So a call returns only
where the first answer comes through, and no later call does.
-/
namespace TrueFigure.Sdk

open TrueFigure.Python TrueFigure.Server

/-- The arguments of `register_deployment` beside the external reference. -/
structure RegisterArgs where
  name : String
  type : String
  plannedRolloutAt : Option String
  serviceUserRefs : List String

abbrev ExternalRef := {ref : String // ref ≠ ""}

/-- The body `register_deployment` posts. -/
def RegisterArgs.body (args : RegisterArgs) (ref : ExternalRef) : DeploymentCreate where
  name := args.name
  type := args.type
  externalRef := some ref.1
  plannedRolloutAt := given args.plannedRolloutAt
  serviceUserRefs := args.serviceUserRefs

/-- The key's workspace, the client's retries and the database's reading of
timestamps. -/
structure Setting where
  timestamptz : String → Option ℤ
  workspaceId : ℕ
  maxRetries : ℕ

/-- What the server draws at each attempt of a call, and what becomes of its
answer. -/
structure Traffic where
  draw : ℕ → String
  network : ℕ → Delivery

def serveRegistration (c : Setting) (body : DeploymentCreate) (traffic : Traffic) (attempt : ℕ)
    (t : DeploymentTables) : Server.Answer DeploymentReply × DeploymentTables :=
  postDeployment c.timestamptz c.workspaceId body (traffic.draw attempt) t

def registerDeployment (c : Setting) (ref : ExternalRef) (args : RegisterArgs) (traffic : Traffic)
    (t : DeploymentTables) : Except ClientError DeploymentReply × DeploymentTables :=
  requestData (serveRegistration c (args.body ref) traffic) traffic.network c.maxRetries t

/-- A deployment has the external reference. -/
def Taken (c : Setting) (ref : ExternalRef) (t : DeploymentTables) : Prop :=
  ∃ d, t.registered c.workspaceId ref.1 = some d

/-- Other requests leave every deployment with its workspace and its external
reference. -/
def Keeps (t t' : DeploymentTables) : Prop :=
  ∀ d ∈ t.deployments, ∃ d' ∈ t'.deployments,
    d'.workspaceId = d.workspaceId ∧ d'.externalRef = d.externalRef

/-- A call returns the one deployment of its external reference, and a later call
on these tables returns it again. -/
def RetriesSafely (c : Setting) (ref : ExternalRef) (args later : RegisterArgs)
    (traffic laterTraffic : Traffic) (t laterTables : DeploymentTables) : Prop :=
  ∃ reply t', registerDeployment c ref args traffic t = (.ok reply, t') ∧
    (∃ d ∈ t'.deployments, d.deploymentRef = reply.deploymentId ∧
      d.workspaceId = c.workspaceId ∧ d.externalRef = some ref.1 ∧
      ∀ e ∈ t'.deployments, e.workspaceId = c.workspaceId → e.externalRef = some ref.1 → e = d) ∧
    ∃ reply' t'', registerDeployment c ref later laterTraffic laterTables = (.ok reply', t'') ∧
      reply'.deploymentId = reply.deploymentId

variable {c : Setting} {ref : ExternalRef} {args later : RegisterArgs}
  {traffic laterTraffic : Traffic} {t t' laterTables : DeploymentTables} {reply : DeploymentReply}

theorem Failure.answer_succeeded (e : Server.Failure) :
    (Response.ofAnswer (e.answer : Server.Answer DeploymentReply)).succeeded = false := by
  unfold Failure.answer
  split <;> simp [Response.succeeded, Response.ofAnswer]

theorem requestData_ok {σ α : Type} {serve : ℕ → σ → Server.Answer α × σ} {network : ℕ → Delivery}
    {maxRetries : ℕ} {s s' : σ} {data : α}
    (h : requestData serve network maxRetries s = (.ok data, s')) :
    ∃ r, requestLoop serve network maxRetries 1 s = (.ok r, s') ∧ r.data = some data := by
  unfold requestData at h
  split at h
  · cases h
  · rename_i r _ hloop
    split at h
    · rename_i data' hdata
      obtain ⟨hdata', rfl⟩ := Prod.mk.inj h
      obtain rfl := Except.ok.inj hdata'
      exact ⟨r, hloop, hdata⟩
    · cases h

/-- An attempt under a taken reference is refused and changes nothing. -/
theorem serveRegistration_taken (h : Taken c ref t) (attempt : ℕ) :
    ∃ e : Server.Failure, serveRegistration c (args.body ref) traffic attempt t = (e.answer, t) := by
  obtain ⟨d, hd⟩ := h
  obtain ⟨e, he⟩ := @registerDeployment_taken c.timestamptz c.workspaceId (args.body ref)
    (traffic.draw attempt) t ref.1 rfl ref.2 d hd
  exact ⟨e, by rw [serveRegistration, postDeployment, he]⟩

/-- No attempt under a taken reference ends the loop with a response. -/
theorem requestLoop_of_taken (h : Taken c ref t) {left attempt : ℕ}
    {r : Response DeploymentReply} :
    requestLoop (serveRegistration c (args.body ref) traffic) traffic.network left attempt t ≠
      (.ok r, t') := by
  intro hloop
  have hkeep : ∀ n s, Taken c ref s →
      Taken c ref (serveRegistration c (args.body ref) traffic n s).2 := by
    intro n s hs
    obtain ⟨e, he⟩ := @serveRegistration_taken c ref args traffic s hs n
    rwa [he]
  obtain ⟨n, before, hbefore, -, hr, hsucceeded⟩ := requestLoop_ok h hkeep hloop
  obtain ⟨e, he⟩ := @serveRegistration_taken c ref args traffic before hbefore n
  rw [hr, he, Failure.answer_succeeded] at hsucceeded
  cases hsucceeded

theorem registerDeployment_of_taken (h : Taken c ref t) :
    registerDeployment c ref args traffic t ≠ (.ok reply, t') := by
  intro hok
  obtain ⟨r, hloop, -⟩ := requestData_ok hok
  exact requestLoop_of_taken h hloop

theorem taken_of_server {draw : String}
    (h : Server.registerDeployment c.timestamptz c.workspaceId (args.body ref) draw t =
      .ok (reply, t')) : Taken c ref t' := by
  obtain ⟨-, -, d, hdeployments, hws, hexternal, -⟩ :=
    registerDeployment_ok (by rfl) ref.2 h
  cases hfound : t'.registered c.workspaceId ref.1 with
  | some found => exact ⟨found, hfound⟩
  | none =>
    have hmem : d ∈ t'.deployments := by
      rw [hdeployments]
      exact List.mem_append_right _ (List.mem_singleton_self d)
    exact absurd ⟨hws, hexternal⟩ (registered_eq_none hfound d hmem)

theorem taken_of_registered (h : registerDeployment c ref args traffic t = (.ok reply, t')) :
    Taken c ref t' := by
  obtain ⟨r, hloop, -⟩ := requestData_ok h
  obtain ⟨n, before, -, hserved, hr, hsucceeded⟩ :=
    @requestLoop_ok _ _ _ _ _ _ _ _ (fun _ => True) trivial (fun _ _ _ => trivial) r hloop
  have hstate : (serveRegistration c (args.body ref) traffic n before).2 = t' := by rw [hserved]
  unfold serveRegistration postDeployment at hstate hr
  split at hstate
  · rename_i reply' t₁ hregistered
    obtain rfl : t₁ = t' := hstate
    exact taken_of_server hregistered
  · rename_i e herror
    rw [herror] at hr
    rw [hr, Failure.answer_succeeded] at hsucceeded
    cases hsucceeded

theorem Taken.keeps (h : Taken c ref t) (hkeeps : Keeps t t') : Taken c ref t' := by
  obtain ⟨d, hd⟩ := h
  obtain ⟨hmem, hws, hexternal⟩ := registered_eq_some hd
  obtain ⟨d', hmem', hws', hexternal'⟩ := hkeeps d hmem
  cases hfound : t'.registered c.workspaceId ref.1 with
  | some found => exact ⟨found, hfound⟩
  | none =>
    exact absurd ⟨hws'.trans hws, hexternal'.trans hexternal⟩ (registered_eq_none hfound d' hmem')

/-- Where the server registers the deployment at the first attempt, the call
returns exactly if the first answer comes through. -/
theorem registerDeployment_returns_iff {t₁ : DeploymentTables}
    (h : Server.registerDeployment c.timestamptz c.workspaceId (args.body ref) (traffic.draw 1) t =
      .ok (reply, t₁)) :
    (∃ reply' t', registerDeployment c ref args traffic t = (.ok reply', t')) ↔
      traffic.network 1 = .intact := by
  have hserved : serveRegistration c (args.body ref) traffic 1 t = (⟨201, some reply, []⟩, t₁) := by
    rw [serveRegistration, postDeployment, h]
  have htaken : Taken c ref t₁ := taken_of_server h
  constructor
  · rintro ⟨reply', t', hok⟩
    obtain ⟨r, hloop, -⟩ := requestData_ok hok
    unfold requestLoop at hloop
    rw [hserved] at hloop
    cases hdelivery : traffic.network 1 with
    | intact => rfl
    | lost =>
      rw [hdelivery] at hloop
      cases hloop
    | replaced status errors hstatus =>
      rw [hdelivery] at hloop
      have hfailed : (⟨status, none, errors⟩ : Response DeploymentReply).succeeded = false := by
        simp only [Response.succeeded, Bool.and_eq_false_iff, decide_eq_false_iff_not]
        exact .inl (by omega)
      simp only [Delivery.deliver, hfailed, Bool.false_eq_true, if_false] at hloop
      split_ifs at hloop
      · cases hretries : c.maxRetries with
        | zero =>
          rw [hretries] at hloop
          cases hloop
        | succ left =>
          rw [hretries] at hloop
          exact absurd hloop (requestLoop_of_taken htaken)
      · cases hloop
  · intro hintact
    refine ⟨reply, t₁, ?_⟩
    unfold registerDeployment requestData requestLoop
    rw [hserved, hintact]
    rfl

/-- No call returns the deployment so that a later call returns it too. -/
theorem never_retriesSafely
    (hkeeps : Keeps (registerDeployment c ref args traffic t).2 laterTables) :
    ¬ RetriesSafely c ref args later traffic laterTraffic t laterTables := by
  rintro ⟨reply, t', hfirst, -, reply', t'', hlater, -⟩
  have htaken : Taken c ref t' := taken_of_registered hfirst
  rw [hfirst] at hkeeps
  exact registerDeployment_of_taken (htaken.keeps hkeeps) hlater

/-! ### An answer that is replaced -/

def sampleSetting : Setting where
  timestamptz _ := none
  workspaceId := 1
  maxRetries := 5

def sampleRef : ExternalRef := ⟨"ext-1", by decide⟩

def claimsArgs : RegisterArgs where
  name := "Claims AI"
  type := "saas_tool"
  plannedRolloutAt := none
  serviceUserRefs := []

def noDeployments : DeploymentTables := ⟨[], [], [], 0⟩

/-- Every answer comes through. -/
def calm : Traffic where
  draw attempt := "dep_" ++ toString attempt
  network _ := .intact

/-- A gateway answers 503 in place of the first answer. -/
def firstReplaced : Traffic where
  draw attempt := "dep_" ++ toString attempt
  network attempt := if attempt = 1 then .replaced 503 [] (by decide) else .intact

theorem never_retriesSafely_calm :
    ¬ RetriesSafely sampleSetting sampleRef claimsArgs claimsArgs calm calm noDeployments
      (registerDeployment sampleSetting sampleRef claimsArgs calm noDeployments).2 :=
  never_retriesSafely fun d hd => ⟨d, hd, rfl, rfl⟩

/-- The second attempt is refused, and the call raises the refusal. -/
theorem firstReplaced_raises :
    (registerDeployment sampleSetting sampleRef claimsArgs firstReplaced noDeployments).1 =
        .error (.trueFigure [.ofServer (alreadyApplied
          ⟨0, 1, .saasTool, .measured, .active, "dep_1", "Claims AI", some "ext-1",
            none⟩).toErrorObject]) ∧
      ¬ RetriesSafely sampleSetting sampleRef claimsArgs claimsArgs firstReplaced calm
        noDeployments
        (registerDeployment sampleSetting sampleRef claimsArgs firstReplaced noDeployments).2 := by
  have hraises : (registerDeployment sampleSetting sampleRef claimsArgs firstReplaced
      noDeployments).1 = .error (.trueFigure [.ofServer (alreadyApplied
        ⟨0, 1, .saasTool, .measured, .active, "dep_1", "Claims AI", some "ext-1",
          none⟩).toErrorObject]) := by rfl
  refine ⟨hraises, ?_⟩
  rintro ⟨reply, t', hfirst, -⟩
  rw [hfirst] at hraises
  cases hraises

end TrueFigure.Sdk
