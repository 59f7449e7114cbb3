import TrueFigure.Library.Precedence
import TrueFigure.Server.References

/-!
# Id namespaces

`register_id_namespace` declares at most one namespace for a scope, a field and a source.
Ingestion checks the ids of an event against the declaration that applies to it, and the pipeline
looks its person up in the namespace of the declaration that applies then. No declaration is ever
changed, so between the two the one that applies changes only to a more specific one.
-/
namespace TrueFigure.Server

open TrueFigure.Library TrueFigure.Python

/-- `IdNamespaceCreate`. -/
structure IdNamespaceCreate where
  field : IdField
  ns : PyStr
  deploymentId : Option PyStr := none
  sourceRef : PyStr := []
  formatRegex : Option PyStr := none
  description : Option PyStr := none

/-- `_resolve_deployment` of the configuration plane, on the rows of `deployments`. -/
def scopeDeployment (principal : Principal) (wireId : PyStr) (next : ℕ → Transaction) :
    Transaction :=
  match textArgument wireId with
  | .error e => .throw e
  | .ok ref => .read fun s =>
    match deploymentOf s principal.workspaceId ref with
    | none => .throw (.tfError ⟨.evt002, none, some (py "unknown deployment " ++ wireId)⟩)
    | some dep =>
      if principal.mayTouch dep.id then next dep.id
      else .throw (.tfError ⟨.auth002, none,
        some (py "key not scoped to deployment " ++ py (toString dep.id))⟩)

/-- The columns of a declaration. -/
def namespaceValues (body : IdNamespaceCreate) : Except Failure NamespaceRow := do
  let ns ← textArgument body.ns
  let formatRegex ← optionalText body.formatRegex
  let _ ← optionalText body.description
  .ok ⟨ns, formatRegex⟩

/-- `TF-CFG-004` of a scope that has its declaration. -/
def alreadyDeclared : TFError :=
  ⟨.cfg004, some (py "field"), some (py "active namespace already declared for scope")⟩

section

variable (indexable : RowKey → Bool) (principal : Principal) (body : IdNamespaceCreate)

/-- `INSERT INTO identifier_namespaces`, under the unique index of its scope. -/
def newNamespace (k : RowKey) (before : Option NamespaceRow) : Except Failure NamespaceRow := do
  let row ← namespaceValues body
  match before with
  | some _ => .error (.database .uniqueViolation)
  | none => if indexable k then .ok row else .error (.database .indexRowSize)

def declareScope (deploymentId : Option ℕ) : Transaction :=
  match textArgument body.sourceRef with
  | .error e => .throw e
  | .ok sourceRef => .read fun s =>
    if (activeNamespace s principal.workspaceId deploymentId body.field sourceRef).isSome then
      .throw (.tfError alreadyDeclared)
    else
      let k : RowKey :=
        .identifierNamespace principal.workspaceId deploymentId body.field sourceRef
      .write (.identifierNamespace principal.workspaceId deploymentId body.field sourceRef)
        (newNamespace indexable body k) fun _ => .pure .done

def registerIdNamespace : Transaction :=
  match body.deploymentId with
  | none => declareScope indexable principal body none
  | some wireId =>
    if wireId = [] then declareScope indexable principal body none
    else scopeDeployment principal wireId fun id => declareScope indexable principal body (some id)

end

/-- A transaction of a request, an import, a roster call, a worker or a declaration. -/
inductive DeclaringBody : Transaction → Prop
  | store {env : Env} {intake : Intake} {sub : Submission} {adm : Admitted} (index : ℕ)
    (h : examine env intake sub = .ok adm) : DeclaringBody (storeOne env intake index adm)
  | quarantine (env : Env) (intake : Intake) (event : Json) (err : TFError)
    (key : Option PyStr) : DeclaringBody (quarantine env intake event err key)
  | roster (conn : RosterConnection) (workspaceId : ℕ) (item : RosterUser) :
    DeclaringBody (upsertRosterUser conn workspaceId item)
  | worker (conn : Connection) : DeclaringBody (processNext conn)
  | declare (indexable : RowKey → Bool) (principal : Principal) (body : IdNamespaceCreate) :
    DeclaringBody (registerIdNamespace indexable principal body)

theorem StatusParty.declaring {p : Process} (h : StatusParty p) : p.All DeclaringBody := by
  cases h with
  | request env intake events =>
    exact ingestEvents_all (fun index _ _ => .store index) (.quarantine env intake) events
  | importJob env intake lines =>
    exact runImport_all (fun _ index _ _ => .store index) (.quarantine env) lines
  | roster conn workspaceId users =>
    apply Proc.All.mono _ (upsertRoster_bodies workspaceId users [])
    rintro body ⟨ws, item, rfl⟩
    exact .roster conn ws item
  | worker conn limit => exact runPipelineFrom_all (.worker conn) limit _

/-! ### Declarations stay -/

variable {s t : Db} {ws dep : ℕ} {field : IdField} {src : PyStr}

def declarationOrder : RowOrder Row where
  le
    | .identifierNamespace _ _ _ _, row, row' => row' = row
    | _, _, _ => True
  refl := by
    intro k row
    cases k <;> trivial
  trans := by
    intro k row row' row'' h h'
    cases k with
    | identifierNamespace ws dep field src => exact Eq.trans h' h
    | _ => trivial

def Change.Declares (c : Change Row) : Prop :=
  match c with
  | ⟨.identifierNamespace _ _ _ _, before, _⟩ => before = none
  | _ => True

theorem declaring_raises {body : Transaction} (h : Writes Change.Declares body) :
    declarationOrder.Raises body := by
  apply RowOrder.raises_of_changes
  intro log a hruns c hc old hold
  have hdeclares := h log _ hruns c hc
  obtain ⟨k, before, after⟩ := c
  cases k with
  | identifierNamespace ws dep field src =>
    dsimp only at hold
    rw [hold] at hdeclares
    cases hdeclares
  | _ => trivial

theorem writes_declareScope (indexable : RowKey → Bool) (principal : Principal)
    (body : IdNamespaceCreate) (deploymentId : Option ℕ) :
    Writes Change.Declares (declareScope indexable principal body deploymentId) := by
  unfold declareScope
  split
  · exact writes_throw _
  · apply writes_read
    intro s
    split_ifs
    · exact writes_throw _
    · apply writes_write
      · intro before after hu
        obtain ⟨row, -, hu⟩ := bind_eq_ok hu
        cases before with
        | none => rfl
        | some old => cases hu
      · exact fun _ => writes_pure _

theorem writes_registerIdNamespace (indexable : RowKey → Bool) (principal : Principal)
    (body : IdNamespaceCreate) :
    Writes Change.Declares (registerIdNamespace indexable principal body) := by
  unfold registerIdNamespace
  split
  · exact writes_declareScope indexable principal body none
  · split_ifs
    · exact writes_declareScope indexable principal body none
    · unfold scopeDeployment
      split
      · exact writes_throw _
      · apply writes_read
        intro s
        split
        · exact writes_throw _
        · split_ifs
          · exact writes_declareScope indexable principal body _
          · exact writes_throw _

theorem processNext_keeps_declarations (conn : Connection) :
    declarationOrder.Raises (processNext conn) := by
  intro log a s hruns hlog k row hrow
  rcases runs_processNext hruns with rfl | ⟨ev, u, x, w, hevent⟩
  · exact ⟨row, hrow, declarationOrder.refl k row⟩
  have hsome : ∃ row', (view log s).lookup k = some row' := by
    apply Option.ne_none_iff_exists'.1
    intro hnone
    rw [lookup_of_view_none hnone] at hrow
    cases hrow
  cases k with
  | identifierNamespace ws dep field src =>
    have hkept := (hevent.effect hlog).others (.identifierNamespace ws dep field src)
      (by simp) (by simp) (by simp) (by simp) (by simp)
    exact ⟨row, hkept.trans hrow, rfl⟩
  | _ =>
    obtain ⟨row', hrow'⟩ := hsome
    exact ⟨row', hrow', trivial⟩

theorem DeclaringBody.raises {body : Transaction} (h : DeclaringBody body) :
    declarationOrder.Raises body := by
  cases h with
  | store index h =>
    apply declaring_raises
    exact writes_storeOne _ _ ⟨fun _ _ _ _ _ => trivial, fun _ _ _ => trivial⟩ _ _
  | quarantine env intake event err key =>
    apply declaring_raises
    exact writes_quarantine _ _ ⟨fun _ _ _ _ _ => trivial, fun _ _ _ => trivial⟩ _ _ _
  | roster conn ws item =>
    apply declaring_raises
    intro log r hruns c hc
    have hkept := writes_upsertRosterUser conn ws item log r hruns c hc
    obtain ⟨k, before, after⟩ := c
    cases k with
    | identifierNamespace => exact hkept.elim
    | _ => trivial
  | worker conn => exact processNext_keeps_declarations conn
  | declare indexable principal body =>
    exact declaring_raises (writes_registerIdNamespace indexable principal body)

/-! ### The declaration that applies -/

/-- The declarations that could apply to a field: a deployment's before the workspace's, a
source's before the untagged one. -/
def candidates (s : Db) (ws dep : ℕ) (field : IdField) (src : PyStr) :
    List (Option NamespaceRow) :=
  [activeNamespace s ws (some dep) field src, activeNamespace s ws (some dep) field [],
    activeNamespace s ws none field src, activeNamespace s ws none field []]

theorem applicableNamespace_eq : applicableNamespace s ws dep field src =
    (candidates s ws dep field src).findSome? id := by
  unfold applicableNamespace candidates
  cases activeNamespace s ws (some dep) field src with
  | some row => rfl
  | none =>
    cases activeNamespace s ws (some dep) field [] with
    | some row => rfl
    | none =>
      cases activeNamespace s ws none field src with
      | some row => rfl
      | none =>
        cases activeNamespace s ws none field [] with
        | some row => rfl
        | none => rfl

/-- How specific the declaration that applies is; zero where none applies. -/
def specificity (s : Db) (ws dep : ℕ) (field : IdField) (src : PyStr) : ℕ :=
  precedence (candidates s ws dep field src)

/-- The scope that a declaration is for: the workspace, or a deployment of it that the key may
touch. -/
def NamesScope (s : Db) (principal : Principal) (body : IdNamespaceCreate) : Option ℕ → Prop
  | none => body.deploymentId = none ∨ body.deploymentId = some []
  | some id => ∃ wireId ref dep, body.deploymentId = some wireId ∧ wireId ≠ [] ∧
      textArgument wireId = .ok ref ∧ deploymentOf s principal.workspaceId ref = some dep ∧
      dep.id = id ∧ principal.mayTouch id

theorem registerIdNamespace_eval {indexable : RowKey → Bool} {principal : Principal}
    {body : IdNamespaceCreate} {scope : Option ℕ} (h : NamesScope s principal body scope) (n : ℕ) :
    (registerIdNamespace indexable principal body).eval s n =
      (declareScope indexable principal body scope).eval s n := by
  unfold registerIdNamespace
  cases scope with
  | none =>
    rcases h with hnone | hempty
    · rw [hnone]
    · rw [hempty]
      exact congrArg (Txn.eval · s n) (if_pos rfl)
  | some id =>
    obtain ⟨wireId, ref, dep, hbody, hwire, htext, hdep, rfl, hmay⟩ := h
    rw [hbody]
    dsimp only
    rw [if_neg hwire, scopeDeployment, htext]
    dsimp only
    rw [Txn.eval, hdep]
    exact congrArg (Txn.eval · s n) (if_pos hmay)

/-- From the one state to the other no declaration is changed or taken back, the one that applies
to a field changes only to a more specific one, and a scope that has one is refused another. -/
structure DeclarationsHold (s t : Db) : Prop where
  stands : ∀ ws dep field src (row : NamespaceRow),
    s.lookup (.identifierNamespace ws dep field src) = some row →
      t.lookup (.identifierNamespace ws dep field src) = some row
  sharper : ∀ ws dep field src, specificity s ws dep field src ≤ specificity t ws dep field src
  same : ∀ ws dep field src, specificity s ws dep field src = specificity t ws dep field src →
    applicableNamespace s ws dep field src = applicableNamespace t ws dep field src
  refused : ∀ indexable principal body scope src (row : NamespaceRow) n,
    NamesScope t principal body scope → textArgument body.sourceRef = .ok src →
    s.lookup (.identifierNamespace principal.workspaceId scope body.field src) = some row →
      (registerIdNamespace indexable principal body).eval t n =
        (.error (.tfError alreadyDeclared), n)

theorem declarationsHold_of_stands (h : ∀ ws dep field src (row : NamespaceRow),
    s.lookup (.identifierNamespace ws dep field src) = some row →
      t.lookup (.identifierNamespace ws dep field src) = some row) : DeclarationsHold s t := by
  have hcandidates : ∀ ws dep field src,
      Stay (candidates s ws dep field src) (candidates t ws dep field src) := by
    intro ws dep field src
    exact .cons (h _ _ _ _) (.cons (h _ _ _ _) (.cons (h _ _ _ _) (.cons (h _ _ _ _) .nil)))
  refine ⟨h, fun ws dep field src => (hcandidates ws dep field src).precedence_le,
    fun ws dep field src hsame => ?_, ?_⟩
  · rw [applicableNamespace_eq, applicableNamespace_eq]
    exact (hcandidates ws dep field src).findSome?_eq hsame
  · intro indexable principal body scope src row n hscope htext hrow
    have hthere : activeNamespace t principal.workspaceId scope body.field src = some row :=
      h _ _ _ _ row hrow
    rw [registerIdNamespace_eval hscope, declareScope, htext]
    dsimp only
    rw [Txn.eval, hthere]
    rfl

/-- Between any two moments of any run of requests, imports, roster calls, workers and
declarations. -/
theorem declarations_hold {ι : Type} [DecidableEq ι]
    {w₀ w w' : World ι Row Failure Reply Outcome}
    (hparties : ∀ i, ∃ p : Process, w₀.stations i = .resting p ∧ p.All DeclaringBody)
    (hreach : Reachable (fun _ => True) w₀ w) (hreach' : Reachable (fun _ => True) w w') :
    DeclarationsHold w.committed w'.committed := by
  have hidle : w₀.Idle declarationOrder.Raises := by
    intro i
    obtain ⟨p, hp, hall⟩ := hparties i
    exact ⟨p, hp, Proc.All.mono (fun _ => DeclaringBody.raises) hall⟩
  apply declarationsHold_of_stands
  intro ws dep field src row hrow
  obtain ⟨row', hrow', hsame⟩ := RowOrder.above_of_reachable hidle hreach hreach'
    (.identifierNamespace ws dep field src) row hrow
  rw [hrow', show row' = row from hsame]

/-! ### Two declarations of one scope -/

def declaringKey : Principal where
  workspaceId := 1
  mode := .production
  scope := .workspace
  grantedDeploymentIds := []

/-- A declaration of the workspace's persons. -/
def personNamespace (ns : PyStr) : IdNamespaceCreate := { field := .userRef, ns := ns }

/-- One call declares e-mail addresses, another one badges, beside a worker. -/
def twoDeclarations : World (Option Bool) Row Failure Reply Outcome where
  committed := ∅
  sequence := 1
  stations := fun party => .resting (party.elim (runPipeline utcConnection 5) fun first =>
    .txn (registerIdNamespace (fun _ => true) declaringKey
      (personNamespace (if first then py "email" else py "badge"))) fun _ => .done (.results []))

set_option maxRecDepth 4000 in
/-- The first one stands when the other one has run. -/
theorem declarations_hold_first : ∃ w w', Reachable (fun _ => True) twoDeclarations w ∧
    Reachable (fun _ => True) w w' ∧ DeclarationsHold w.committed w'.committed ∧
    (applicableNamespace w.committed 1 9 .userRef (py "crm")).map NamespaceRow.ns =
      some (py "email") ∧
    (applicableNamespace w'.committed 1 9 .userRef (py "crm")).map NamespaceRow.ns =
      some (py "email") := by
  have hresting : twoDeclarations.Resting := fun _ => ⟨_, rfl⟩
  obtain ⟨w, hrun, hresting', hcommitted, hsequence, hothers⟩ :=
    run_resting (i := some true) hresting rfl
  obtain ⟨w', hrun', -, hcommitted', -⟩ :=
    run_resting (i := some false) hresting' (hothers (some false) (by decide))
  refine ⟨w, w', hrun, hrun', ?_, ?_, ?_⟩
  · apply declarations_hold _ hrun hrun'
    intro party
    refine ⟨_, rfl, ?_⟩
    cases party with
    | none => exact (StatusParty.worker utcConnection 5).declaring
    | some first => exact ⟨.declare _ _ _, fun _ => trivial⟩
  · rw [hcommitted]
    decide +kernel
  · rw [hcommitted', hcommitted, hsequence]
    decide +kernel

end TrueFigure.Server
