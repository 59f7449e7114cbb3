import TrueFigure.Library.Chains
import TrueFigure.Library.Runs
import TrueFigure.Server.ChangeTreatment
import TrueFigure.Server.Deployments

/-!
# Superseded changes

`declare_change_event` of `api/routes/config_plane.py`: a correction is inserted, and
the entry it cites is pointed to it. Pointers lead to later entries, so every chain of
corrections ends. An entry that is cited again is pointed elsewhere, and its first
correction stays current beside the second.
-/
namespace TrueFigure.Server

open TrueFigure.Library TrueFigure.Python

/-! ### `declare_change_event` -/

/-- A row of `change_log`. -/
structure ChangeEntry where
  id : ℕ
  workspaceId : ℕ
  supersededById : Option ℕ
  changeType : ChangeType
  sidedType : SidedType
  changeEventRef : String
  occurredAt : ℤ
  description : String

/-- A row of `change_log_deployments`. -/
structure ChangeScope where
  workspaceId : ℕ
  changeLogId : ℕ
  deploymentId : ℕ

/-- The tables `declare_change_event` reads and writes, and the sequence of the change
log. -/
structure ChangeTables where
  changeLog : List ChangeEntry
  scopes : List ChangeScope
  deployments : List DeploymentRecord
  nextId : ℕ

/-- A request body, with its type and sidedness parsed. -/
structure ChangeEventCreate where
  type : ChangeType
  sidedness : SidedType
  occurredAt : String
  description : String
  deploymentRefs : List String
  supersedes : Option String

/-- The data of a 201 answer. -/
structure ChangeReply where
  changeEventRef : String
  type : ChangeType
  sidedness : SidedType

namespace ChangeTables

/-- `INSERT INTO change_log`, under its unique constraint. -/
def insertEntry (t : ChangeTables) (c : ChangeEntry) : Except Failure ChangeTables :=
  if t.changeLog.any fun d => d.changeEventRef = c.changeEventRef then
    .error (.database .uniqueViolation)
  else .ok { t with changeLog := t.changeLog ++ [c], nextId := t.nextId + 1 }

/-- The entries a workspace knows under a reference. -/
def Named (workspaceId : ℕ) (ref : String) (c : ChangeEntry) : Prop :=
  c.changeEventRef = ref ∧ c.workspaceId = workspaceId

instance (workspaceId : ℕ) (ref : String) : DecidablePred (Named workspaceId ref) :=
  fun _ => inferInstanceAs (Decidable (_ ∧ _))

/-- The update of the entry a correction cites. -/
def supersede (t : ChangeTables) (workspaceId id : ℕ) :
    Option String → Except Failure ChangeTables
  | none => .ok t
  | some cited => do
    let cited ← bindText cited
    if t.changeLog.any fun c => Named workspaceId cited c then
      .ok { t with
        changeLog := t.changeLog.map fun c =>
          if Named workspaceId cited c then { c with supersededById := some id } else c }
    else .error (.tfError ⟨.cfg007, some (py "supersedes"),
      some (py "superseded change-event not found")⟩)

/-- The deployments are linked one by one, under a unique constraint. -/
def scopeTo (principal : Principal) (id : ℕ) :
    List String → ChangeTables → Except Failure ChangeTables
  | [], t => .ok t
  | dref :: drefs, t => do
    let dep ← resolveDeployment principal dref t.deployments
    if t.scopes.any fun s => s.changeLogId = id ∧ s.deploymentId = dep.id then
      .error (.database .uniqueViolation)
    else
      scopeTo principal id drefs
        { t with scopes := t.scopes ++ [⟨principal.workspaceId, id, dep.id⟩] }

end ChangeTables

/-- The transaction of `declare_change_event`; `ref` is the reference it draws. -/
def declareChangeEvent (timestamptz : String → Option ℤ) (principal : Principal)
    (body : ChangeEventCreate) (ref : String) (t : ChangeTables) :
    Except Failure (ChangeReply × ChangeTables) := do
  let text ← bindText body.occurredAt
  let description ← bindText body.description
  match timestamptz text with
  | none => .error (.database .invalidText)
  | some occurredAt => do
    let inserted ← t.insertEntry
      { id := t.nextId
        workspaceId := principal.workspaceId
        supersededById := none
        changeType := body.type
        sidedType := body.sidedness
        changeEventRef := ref
        occurredAt := occurredAt
        description := description }
    let corrected ← inserted.supersede principal.workspaceId t.nextId (given body.supersedes)
    let linked ← ChangeTables.scopeTo principal t.nextId body.deploymentRefs corrected
    .ok (⟨ref, body.type, body.sidedness⟩, linked)

/-- The deployments of an entry in `change_log LEFT JOIN change_log_deployments`. -/
def ChangeTables.scopesOf (t : ChangeTables) (id : ℕ) : List (Option ℕ) :=
  let scopes := t.scopes.filter fun s => s.changeLogId = id
  if scopes.isEmpty then [none] else scopes.map fun s => some s.deploymentId

def ChangeEntry.row (c : ChangeEntry) (deploymentId : Option ℕ) : ℕ × ChangeRow :=
  (c.id, ⟨c.workspaceId, deploymentId, c.supersededById.isSome, c.changeType, c.sidedType,
    c.occurredAt⟩)

/-- The join `_change_treatment` reads. -/
def ChangeTables.joined (t : ChangeTables) : List (ℕ × ChangeRow) :=
  t.changeLog.flatMap fun c => (t.scopesOf c.id).map c.row

/-! ### Runs of declarations -/

inductive ChangeLabel
  | other
  | declared (id : ℕ) (cited : Option ℕ)

def ChangeTables.cited (t : ChangeTables) (workspaceId : ℕ) (supersedes : Option String) :
    Option ChangeEntry :=
  (given supersedes).bind fun ref => t.changeLog.find? fun c => Named workspaceId ref c

/-- A call of `declare_change_event`, or a change of the deployments. The reference is
drawn at random once the body has been received, so the body does not cite it; a call
that fails may have used up numbers of the sequence. -/
inductive ChangeStep (timestamptz : String → Option ℤ) :
    ChangeTables → ChangeLabel → ChangeTables → Prop
  | declared {t t' : ChangeTables} {principal : Principal} {body : ChangeEventCreate}
      {ref : String} {reply : ChangeReply} (hdrawn : body.supersedes ≠ some ref)
      (hdeclare : declareChangeEvent timestamptz principal body ref t = .ok (reply, t')) :
      ChangeStep timestamptz t (.declared t.nextId
        ((t.cited principal.workspaceId body.supersedes).map ChangeEntry.id)) t'
  | refused {t : ChangeTables} {principal : Principal} {body : ChangeEventCreate} {ref : String}
      {e : Failure} {n : ℕ} (hn : t.nextId ≤ n)
      (hdeclare : declareChangeEvent timestamptz principal body ref t = .error e) :
      ChangeStep timestamptz t .other { t with nextId := n }
  | deployments (t : ChangeTables) (ds : List DeploymentRecord) :
      ChangeStep timestamptz t .other { t with deployments := ds }

def ChangeLabel.corrections : ChangeLabel → List (ℕ × ℕ)
  | .declared id (some cited) => [(id, cited)]
  | _ => []

def corrections (trace : List (ChangeTables × ChangeLabel)) : List (ℕ × ℕ) :=
  trace.flatMap fun x => x.2.corrections

/-- One entry descends from another by corrections. -/
def Descends (cs : List (ℕ × ℕ)) : ℕ → ℕ → Prop :=
  Relation.ReflTransGen fun a b => (b, a) ∈ cs

/-- `superseded_by_id` of an entry. -/
def ChangeTables.pointer (t : ChangeTables) (id : ℕ) : Option ℕ :=
  (t.changeLog.find? fun c => c.id = id).bind ChangeEntry.supersededById

/-- An entry nothing has superseded. -/
def ChangeTables.Current (t : ChangeTables) (id : ℕ) : Prop :=
  id ∈ t.changeLog.map ChangeEntry.id ∧ t.pointer id = none

/-- Every chain of pointers ends at a current entry; the entries that descend from an
original one have one current among them, and no two of them are read together. -/
structure ChainsOk (t : ChangeTables) (cs : List (ℕ × ℕ)) : Prop where
  ends : ∀ c ∈ t.changeLog, ∃ e, LeadsTo t.pointer c.id e ∧ t.Current e
  current : ∀ o ∈ t.changeLog.map ChangeEntry.id, (∀ c, (o, c) ∉ cs) →
    ∃! e, Descends cs o e ∧ t.Current e
  counted : ∀ (dayOf : ℤ → ℤ) (workspaceId deploymentId : ℕ) (start last : ℤ),
    (t.joined.filter fun r => ChangeRow.Applies dayOf workspaceId deploymentId start last r.2).Pairwise
      fun r r' => ∀ o, (∀ c, (o, c) ∉ cs) → Descends cs o r.1 → ¬ Descends cs o r'.1

/-- No pointer that was set has changed. -/
def PointersKept (t t' : ChangeTables) : Prop :=
  ∀ id n, t.pointer id = some n → t'.pointer id = some n

def CitesCurrent (x : ChangeTables × ChangeLabel) : Prop :=
  ∀ y ∈ x.2.corrections, x.1.pointer y.2 = none

instance (x : ChangeTables × ChangeLabel) : Decidable (CitesCurrent x) :=
  inferInstanceAs (Decidable (∀ y ∈ x.2.corrections, _))

/-- What a run promises in each of its states. -/
def SupersessionOk (timestamptz : String → Option ℤ) (s : ChangeTables)
    (trace : List (ChangeTables × ChangeLabel)) (s' : ChangeTables) : Prop :=
  ∀ pre post t, trace = pre ++ post → Run (ChangeStep timestamptz) s pre t →
    Run (ChangeStep timestamptz) t post s' → ChainsOk t (corrections pre) ∧ PointersKept t s'

/-! ### What a call does -/

/-- Entries and scopes are unique, and pointers lead to later entries. -/
structure ChangeLogOk (t : ChangeTables) : Prop where
  ids : (t.changeLog.map ChangeEntry.id).Nodup
  refs : (t.changeLog.map ChangeEntry.changeEventRef).Nodup
  below : ∀ c ∈ t.changeLog, c.id < t.nextId
  pointers : ∀ a n, t.pointer a = some n → a < n ∧ n ∈ t.changeLog.map ChangeEntry.id
  scopes : (t.scopes.map fun s => (s.changeLogId, s.deploymentId)).Nodup
  scopesBelow : ∀ s ∈ t.scopes, s.changeLogId < t.nextId

section Declaration

variable {timestamptz : String → Option ℤ} {t t' : ChangeTables} {principal : Principal}
  {body : ChangeEventCreate} {ref : String} {reply : ChangeReply} {id : ℕ}

theorem insertEntry_eq_ok {c : ChangeEntry} (h : t.insertEntry c = .ok t') :
    c.changeEventRef ∉ t.changeLog.map ChangeEntry.changeEventRef ∧
      t' = { t with changeLog := t.changeLog ++ [c], nextId := t.nextId + 1 } := by
  unfold ChangeTables.insertEntry at h
  split_ifs at h with hany
  refine ⟨fun hmem => hany ?_, (Except.ok.inj h).symm⟩
  obtain ⟨d, hd, href⟩ := List.mem_map.1 hmem
  exact List.any_eq_true.2 ⟨d, hd, decide_eq_true href⟩

/-- The links of an entry that had none. -/
theorem scopeTo_eq_ok {drefs : List String}
    (h : ChangeTables.scopeTo principal id drefs t = .ok t') :
    t'.changeLog = t.changeLog ∧ t'.nextId = t.nextId ∧
      ((t.scopes.map fun s => (s.changeLogId, s.deploymentId)).Nodup →
        (t'.scopes.map fun s => (s.changeLogId, s.deploymentId)).Nodup) ∧
      ∀ s ∈ t'.scopes, s ∈ t.scopes ∨ s.changeLogId = id := by
  induction drefs generalizing t with
  | nil =>
    cases h
    exact ⟨rfl, rfl, fun h => h, fun s hs => .inl hs⟩
  | cons dref drefs ih =>
    obtain ⟨dep, -, h⟩ := bind_eq_ok h
    split_ifs at h with hany
    obtain ⟨hlog, hnext, hnodup, hscopes⟩ := ih h
    refine ⟨hlog, hnext, fun ht => hnodup ?_, fun s hs => ?_⟩
    · rw [List.map_append, List.nodup_append]
      refine ⟨ht, List.nodup_singleton _, ?_⟩
      intro x hx y hy heq
      obtain ⟨s, hs, rfl⟩ := List.mem_map.1 hx
      rw [List.map_singleton, List.mem_singleton] at hy
      rw [hy] at heq
      refine hany (List.any_eq_true.2 ⟨s, hs, ?_⟩)
      exact decide_eq_true (Prod.mk.inj heq)
    · rcases hscopes s hs with hs | hs
      · rcases List.mem_append.1 hs with hs | hs
        · exact .inl hs
        · rw [List.mem_singleton.1 hs]
          exact .inr rfl
      · exact .inr hs

theorem eq_of_ref_eq {c d : ChangeEntry} (h : ChangeLogOk t) (hc : c ∈ t.changeLog)
    (hd : d ∈ t.changeLog) (href : c.changeEventRef = d.changeEventRef) : c = d :=
  List.inj_on_of_nodup_map h.refs hc hd href

theorem eq_of_id_eq {c d : ChangeEntry} (h : ChangeLogOk t) (hc : c ∈ t.changeLog)
    (hd : d ∈ t.changeLog) (hid : c.id = d.id) : c = d :=
  List.inj_on_of_nodup_map h.ids hc hd hid

/-- The entries once the cited one points to a correction. -/
def ChangeTables.correct (t : ChangeTables) (id : ℕ) (cited : Option ℕ) : List ChangeEntry :=
  t.changeLog.map fun c => if cited = some c.id then { c with supersededById := some id } else c

/-- The update after an insert: the new entry is not the one it cites. -/
theorem supersede_eq_ok {c : ChangeEntry} {ws : ℕ} {supersedes : Option String} (h : ChangeLogOk t)
    (hdrawn : supersedes ≠ some c.changeEventRef)
    (hsupersede : ({ t with changeLog := t.changeLog ++ [c], nextId := t.nextId + 1 } :
      ChangeTables).supersede ws id (given supersedes) = .ok t') :
    t' = { t with
      changeLog := t.correct id ((t.cited ws supersedes).map ChangeEntry.id) ++ [c]
      nextId := t.nextId + 1 } := by
  cases hgiven : given supersedes with
  | none =>
    rw [hgiven] at hsupersede
    cases hsupersede
    simp [ChangeTables.correct, ChangeTables.cited, hgiven]
  | some cited =>
    rw [hgiven, ChangeTables.supersede] at hsupersede
    obtain ⟨cited', hcited, hupdate⟩ := bind_eq_ok hsupersede
    obtain rfl := bindText_eq_ok hcited
    have hnew : ¬ ChangeTables.Named ws cited' c := by
      rintro ⟨href, -⟩
      rw [given, Option.filter_eq_some_iff] at hgiven
      exact hdrawn (href ▸ hgiven.1)
    split_ifs at hupdate with hany
    have hany : t.changeLog.any (fun d => ChangeTables.Named ws cited' d) = true := by
      simpa [hnew] using hany
    cases hfind : t.changeLog.find? fun d => ChangeTables.Named ws cited' d with
    | none =>
      obtain ⟨d, hd, hnamed⟩ := List.any_eq_true.1 hany
      exact absurd hnamed (List.find?_eq_none.1 hfind d hd)
    | some e =>
      have he := List.mem_of_find?_eq_some hfind
      have hnamed := List.find?_some hfind
      simp only [decide_eq_true_eq] at hnamed
      have hciteds : t.cited ws supersedes = some e := by
        rw [ChangeTables.cited, hgiven]
        exact hfind
      rw [← Except.ok.inj hupdate, hciteds]
      congr 1
      rw [List.map_append, List.map_singleton, if_neg hnew, ChangeTables.correct]
      congr 1
      refine List.map_congr_left fun d hd => if_congr ?_ rfl rfl
      rw [Option.map_some, Option.some.injEq]
      constructor
      · intro hd'
        rw [eq_of_ref_eq h hd he (hd'.1.trans hnamed.1.symm)]
      · intro hid
        rw [← eq_of_id_eq h he hd hid]
        exact hnamed

/-- What a declaration leaves: one more entry, which the cited one points to. -/
theorem declare_eq_ok (h : ChangeLogOk t) (hdrawn : body.supersedes ≠ some ref)
    (hdeclare : declareChangeEvent timestamptz principal body ref t = .ok (reply, t')) :
    ∃ c : ChangeEntry, c.id = t.nextId ∧ c.supersededById = none ∧ c.changeEventRef = ref ∧
      ref ∉ t.changeLog.map ChangeEntry.changeEventRef ∧
      t'.changeLog = t.correct t.nextId
        ((t.cited principal.workspaceId body.supersedes).map ChangeEntry.id) ++ [c] ∧
      t'.nextId = t.nextId + 1 ∧
      (t'.scopes.map fun s => (s.changeLogId, s.deploymentId)).Nodup ∧
      ∀ s ∈ t'.scopes, s ∈ t.scopes ∨ s.changeLogId = t.nextId := by
  obtain ⟨text, -, hdeclare⟩ := bind_eq_ok hdeclare
  obtain ⟨description, -, hdeclare⟩ := bind_eq_ok hdeclare
  split at hdeclare
  · cases hdeclare
  · obtain ⟨inserted, hinsert, hdeclare⟩ := bind_eq_ok hdeclare
    obtain ⟨corrected, hsupersede, hdeclare⟩ := bind_eq_ok hdeclare
    obtain ⟨linked, hscope, hdeclare⟩ := bind_eq_ok hdeclare
    obtain ⟨-, rfl⟩ := Prod.mk.inj (Except.ok.inj hdeclare)
    obtain ⟨hnew, rfl⟩ := insertEntry_eq_ok hinsert
    obtain rfl := supersede_eq_ok h hdrawn hsupersede
    obtain ⟨hlog, hnext, hnodup, hscopes⟩ := scopeTo_eq_ok hscope
    exact ⟨_, rfl, rfl, rfl, hnew, hlog, hnext, hnodup h.scopes, hscopes⟩

end Declaration

section Effect

variable {timestamptz : String → Option ℤ} {t t' : ChangeTables} {l : ChangeLabel} {a n id : ℕ}

theorem pointer_of_mem (h : (t.changeLog.map ChangeEntry.id).Nodup) {c : ChangeEntry}
    (hc : c ∈ t.changeLog) : t.pointer c.id = c.supersededById := by
  have hfind : t.changeLog.find? (fun d => d.id = c.id) = some c := by
    cases hfind : t.changeLog.find? fun d => d.id = c.id with
    | none =>
      have hnot := List.find?_eq_none.1 hfind c hc
      simp at hnot
    | some d =>
      have hid := List.find?_some hfind
      simp only [decide_eq_true_eq] at hid
      rw [List.inj_on_of_nodup_map h (List.mem_of_find?_eq_some hfind) hc hid]
  rw [ChangeTables.pointer, hfind]
  rfl

theorem pointer_of_notMem (h : a ∉ t.changeLog.map ChangeEntry.id) : t.pointer a = none := by
  have hfind : t.changeLog.find? (fun d => d.id = a) = none := by
    refine List.find?_eq_none.2 fun d hd hid => h ?_
    exact List.mem_map.2 ⟨d, hd, of_decide_eq_true hid⟩
  rw [ChangeTables.pointer, hfind]
  rfl

theorem nextId_notMem (h : ChangeLogOk t) : t.nextId ∉ t.changeLog.map ChangeEntry.id := by
  intro hmem
  obtain ⟨c, hc, hid⟩ := List.mem_map.1 hmem
  exact absurd (h.below c hc) (by omega)

/-- What a step does to entries and pointers. -/
structure Moves (t : ChangeTables) (l : ChangeLabel) (t' : ChangeTables) : Prop where
  ids : ∀ a ∈ t.changeLog.map ChangeEntry.id, a ∈ t'.changeLog.map ChangeEntry.id
  pointer : ∀ a, t'.pointer a = if (t.nextId, a) ∈ l.corrections then some t.nextId else t.pointer a
  corrections : ∀ x ∈ l.corrections, x.1 = t.nextId ∧ x.2 ∈ t.changeLog.map ChangeEntry.id

theorem map_id_correct (t : ChangeTables) (id : ℕ) (cited : Option ℕ) :
    (t.correct id cited).map ChangeEntry.id = t.changeLog.map ChangeEntry.id := by
  rw [ChangeTables.correct, List.map_map]
  refine List.map_congr_left fun c _ => ?_
  rw [Function.comp_apply]
  split <;> rfl

theorem map_ref_correct (t : ChangeTables) (id : ℕ) (cited : Option ℕ) :
    (t.correct id cited).map ChangeEntry.changeEventRef =
      t.changeLog.map ChangeEntry.changeEventRef := by
  rw [ChangeTables.correct, List.map_map]
  refine List.map_congr_left fun c _ => ?_
  rw [Function.comp_apply]
  split <;> rfl

theorem moves_of_changeLog_eq (hlog : t'.changeLog = t.changeLog) : Moves t .other t' := by
  constructor
  · intro a ha
    rwa [hlog]
  · intro a
    rw [if_neg (by simp [ChangeLabel.corrections]), ChangeTables.pointer, hlog]
    rfl
  · intro x hx
    cases hx

theorem pointer_correct {c : ChangeEntry} {cited : Option ℕ} (h : ChangeLogOk t)
    (hid : c.id = t.nextId) (hc : c.supersededById = none)
    (hcited : ∀ b ∈ cited, b ∈ t.changeLog.map ChangeEntry.id)
    (hlog : t'.changeLog = t.correct t.nextId cited ++ [c])
    (hids : (t'.changeLog.map ChangeEntry.id).Nodup) (a : ℕ) :
    t'.pointer a = if cited = some a then some t.nextId else t.pointer a := by
  by_cases ha : a ∈ t.changeLog.map ChangeEntry.id
  · obtain ⟨d, hd, rfl⟩ := List.mem_map.1 ha
    have hmem : (if cited = some d.id then { d with supersededById := some t.nextId } else d) ∈
        t'.changeLog := by
      rw [hlog]
      exact List.mem_append_left _ (List.mem_map.2 ⟨d, hd, rfl⟩)
    have hpointer := pointer_of_mem hids hmem
    rw [pointer_of_mem h.ids hd]
    split_ifs at hpointer ⊢ <;> exact hpointer
  · have hnot : cited ≠ some a := fun h => ha (hcited a h)
    rw [if_neg hnot, pointer_of_notMem ha]
    by_cases hnew : a = t.nextId
    · have hmem : c ∈ t'.changeLog := by
        rw [hlog]
        exact List.mem_append_right _ (List.mem_singleton_self c)
      rw [hnew, ← hid, pointer_of_mem hids hmem, hc]
    · refine pointer_of_notMem ?_
      rw [hlog, List.map_append, map_id_correct, List.mem_append, List.map_singleton,
        List.mem_singleton, hid]
      exact fun hor => hor.elim ha hnew

theorem ChangeStep.effect (h : ChangeLogOk t) (hs : ChangeStep timestamptz t l t') :
    ChangeLogOk t' ∧ Moves t l t' := by
  cases hs with
  | deployments => exact ⟨⟨h.ids, h.refs, h.below, h.pointers, h.scopes, h.scopesBelow⟩,
      moves_of_changeLog_eq rfl⟩
  | refused hn hdeclare =>
    refine ⟨⟨h.ids, h.refs, fun c hc => ?_, h.pointers, h.scopes, fun s hs => ?_⟩,
      moves_of_changeLog_eq rfl⟩
    · exact Nat.lt_of_lt_of_le (h.below c hc) hn
    · exact Nat.lt_of_lt_of_le (h.scopesBelow s hs) hn
  | @declared _ principal body ref reply hdrawn hdeclare =>
    obtain ⟨c, hid, hcurrent, href, hnew, hlog, hnext, hscopes, hbelow⟩ :=
      declare_eq_ok h hdrawn hdeclare
    have hcited : ∀ b ∈ (t.cited principal.workspaceId body.supersedes).map ChangeEntry.id,
        b ∈ t.changeLog.map ChangeEntry.id := by
      intro b hb
      obtain ⟨d, hd, rfl⟩ := Option.map_eq_some_iff.1 hb
      obtain ⟨r, -, hfind⟩ := Option.bind_eq_some_iff.1 hd
      exact List.mem_map_of_mem (List.mem_of_find?_eq_some hfind)
    generalize (t.cited principal.workspaceId body.supersedes).map ChangeEntry.id = cited
      at hlog hcited ⊢
    have hmapped : t'.changeLog.map ChangeEntry.id =
        t.changeLog.map ChangeEntry.id ++ [t.nextId] := by
      rw [hlog, List.map_append, map_id_correct, List.map_singleton, hid]
    have hids : (t'.changeLog.map ChangeEntry.id).Nodup := by
      rw [hmapped]
      rw [← List.concat_eq_append]
      exact h.ids.concat (nextId_notMem h)
    have hpointer := pointer_correct h hid hcurrent hcited hlog hids
    have hcorrections : ∀ a, (t.nextId, a) ∈ (ChangeLabel.declared t.nextId cited).corrections ↔
        cited = some a := by
      intro a
      cases cited with
      | none => simp [ChangeLabel.corrections]
      | some b => simp [ChangeLabel.corrections, eq_comm]
    refine ⟨⟨hids, ?_, ?_, ?_, hscopes, ?_⟩, ⟨?_, ?_, ?_⟩⟩
    · rw [hlog, List.map_append, map_ref_correct, List.map_singleton, href]
      rw [← List.concat_eq_append]
      exact h.refs.concat hnew
    · intro d hd
      have hmem : d.id ∈ t'.changeLog.map ChangeEntry.id := List.mem_map_of_mem hd
      rw [hmapped] at hmem
      rcases List.mem_append.1 hmem with hmem | hmem
      · obtain ⟨e, he, heq⟩ := List.mem_map.1 hmem
        have := h.below e he
        omega
      · rw [List.mem_singleton.1 hmem]
        omega
    · intro a n ha
      rw [hpointer] at ha
      rw [hmapped]
      split_ifs at ha with hcase
      · cases ha
        obtain ⟨d, hd, rfl⟩ := List.mem_map.1 (hcited a hcase)
        exact ⟨h.below d hd, by simp⟩
      · obtain ⟨hlt, hmem⟩ := h.pointers a n ha
        exact ⟨hlt, List.mem_append_left _ hmem⟩
    · intro s hs
      rcases hbelow s hs with hs | hs
      · have := h.scopesBelow s hs
        omega
      · omega
    · intro a ha
      rw [hmapped]
      exact List.mem_append_left _ ha
    · intro a
      rw [hpointer]
      exact if_congr (hcorrections a).symm rfl rfl
    · rintro ⟨n, a⟩ hx
      cases hcase : cited with
      | none => simp [hcase, ChangeLabel.corrections] at hx
      | some b =>
        simp only [hcase, ChangeLabel.corrections, List.mem_singleton, Prod.mk.injEq] at hx
        exact ⟨hx.1, hx.2 ▸ hcited b hcase⟩

end Effect

/-! ### Chains and families -/

section Families

variable {t : ChangeTables} {cs : List (ℕ × ℕ)}

/-- The pointers are the corrections: no entry has been corrected twice. -/
def Corrected (t : ChangeTables) (cs : List (ℕ × ℕ)) : Prop :=
  ∀ a n, t.pointer a = some n ↔ (n, a) ∈ cs

theorem Corrected.descends (h : Corrected t cs) : Descends cs = LeadsTo t.pointer := by
  unfold Descends LeadsTo
  congr
  funext a b
  exact propext (h a b).symm

/-- Every chain ends, whatever has been cited. -/
theorem exists_current (h : ChangeLogOk t) {a : ℕ} (ha : a ∈ t.changeLog.map ChangeEntry.id) :
    ∃ e, LeadsTo t.pointer a e ∧ t.Current e := by
  refine (@exists_end ℕ t.pointer a (fun a => a) t.nextId
    (fun a => a ∈ t.changeLog.map ChangeEntry.id) ?_ ha).imp fun e he => ⟨he.1, he.2⟩
  intro x y hx hxy
  obtain ⟨hlt, hy⟩ := h.pointers x y hxy
  obtain ⟨d, hd, rfl⟩ := List.mem_map.1 hy
  exact ⟨hy, hlt, h.below d hd⟩

theorem nodup_scopesOf (h : ChangeLogOk t) (id : ℕ) : (t.scopesOf id).Nodup := by
  unfold ChangeTables.scopesOf
  dsimp only
  split
  · exact List.nodup_singleton _
  · have hpairs : ((t.scopes.filter fun s => s.changeLogId = id).map
        fun s => (s.changeLogId, s.deploymentId)).Nodup :=
      h.scopes.sublist (List.filter_sublist.map _)
    have hsame : ((t.scopes.filter fun s => s.changeLogId = id).map
        fun s => (s.changeLogId, s.deploymentId)) =
        ((t.scopes.filter fun s => s.changeLogId = id).map fun s => some s.deploymentId).map
          fun d => (id, d.getD 0) := by
      rw [List.map_map]
      refine List.map_congr_left fun s hs => ?_
      have hid : s.changeLogId = id := by simpa using (List.mem_filter.1 hs).2
      simp [hid]
    rw [hsame] at hpairs
    exact hpairs.of_map

section Joined

variable {dayOf : ℤ → ℤ} {ws dep : ℕ} {start last : ℤ}

theorem length_shown_le (h : ChangeLogOk t) (c : ChangeEntry) :
    (((t.scopesOf c.id).map c.row).filter fun r =>
      ChangeRow.Applies dayOf ws dep start last r.2).length ≤ 1 := by
  rw [List.filter_map, List.length_map]
  by_cases hscopes : (t.scopes.filter fun s => s.changeLogId = c.id).isEmpty
  · refine (List.length_filter_le _ _).trans ?_
    simp [ChangeTables.scopesOf, hscopes]
  · have hsubset : (t.scopesOf c.id).filter ((fun r : ℕ × ChangeRow =>
        decide (ChangeRow.Applies dayOf ws dep start last r.2)) ∘ c.row) ⊆ [some dep] := by
      intro d hd
      obtain ⟨hmem, happlies⟩ := List.mem_filter.1 hd
      obtain ⟨-, -, -, -, hscope⟩ := of_decide_eq_true happlies
      rw [ChangeTables.scopesOf, if_neg hscopes] at hmem
      obtain ⟨s, -, rfl⟩ := List.mem_map.1 hmem
      rcases hscope with hscope | hscope
      · exact List.mem_singleton.2 hscope
      · cases hscope
    exact (((nodup_scopesOf h c.id).filter _).subperm hsubset).length_le

/-- The rows a deployment is shown are of distinct current entries. -/
theorem nodup_shown (h : ChangeLogOk t) :
    ((t.joined.filter fun r => ChangeRow.Applies dayOf ws dep start last r.2).map
      Prod.fst).Nodup := by
  have hids : t.changeLog.Pairwise fun c d => c.id ≠ d.id := List.pairwise_map.1 h.ids
  have hmem : ∀ c : ChangeEntry, ∀ a ∈ (((t.scopesOf c.id).map c.row).filter fun r =>
      ChangeRow.Applies dayOf ws dep start last r.2).map Prod.fst, a = c.id := by
    intro c a ha
    obtain ⟨r, hr, rfl⟩ := List.mem_map.1 ha
    obtain ⟨d, -, rfl⟩ := List.mem_map.1 (List.mem_filter.1 hr).1
    rfl
  rw [ChangeTables.joined, List.filter_flatMap, List.map_flatMap, List.nodup_flatMap]
  constructor
  · intro c _
    have hlength := @length_shown_le t dayOf ws dep start last h c
    rw [← List.length_map (f := Prod.fst)] at hlength
    generalize (((t.scopesOf c.id).map c.row).filter fun r =>
      ChangeRow.Applies dayOf ws dep start last r.2).map Prod.fst = xs at hlength
    match xs, hlength with
    | [], _ => exact List.nodup_nil
    | [x], _ => exact List.nodup_singleton x
  · refine hids.imp fun {c d} hne a ha hd => hne ?_
    exact (hmem c a ha).symm.trans (hmem d a hd)

theorem current_of_shown (h : ChangeLogOk t) {r : ℕ × ChangeRow} (hr : r ∈ t.joined)
    (happlies : ChangeRow.Applies dayOf ws dep start last r.2) : t.Current r.1 := by
  obtain ⟨c, hc, hrow⟩ := List.mem_flatMap.1 hr
  obtain ⟨d, -, rfl⟩ := List.mem_map.1 hrow
  refine ⟨List.mem_map_of_mem hc, ?_⟩
  have hcurrent := happlies.2.1
  simp only [ChangeEntry.row, Option.isSome_eq_false_iff, Option.isNone_iff_eq_none] at hcurrent
  exact (pointer_of_mem h.ids hc).trans hcurrent

end Joined

theorem chainsOk_of_corrected (h : ChangeLogOk t) (hcs : Corrected t cs) : ChainsOk t cs := by
  constructor
  · intro c hc
    exact exists_current h (List.mem_map_of_mem hc)
  · intro o ho _
    obtain ⟨e, he, hcurrent⟩ := exists_current h ho
    rw [hcs.descends]
    refine ⟨e, ⟨he, hcurrent⟩, ?_⟩
    rintro e' ⟨he', hcurrent'⟩
    exact end_unique he' he hcurrent'.2 hcurrent.2
  · intro dayOf ws dep start last
    refine (List.pairwise_map.1 (nodup_shown h)).imp_of_mem ?_
    intro r r' hr hr' hne o _ hfirst hsecond
    obtain ⟨hmem, happlies⟩ := List.mem_filter.1 hr
    obtain ⟨hmem', happlies'⟩ := List.mem_filter.1 hr'
    have hcurrent := current_of_shown h hmem (of_decide_eq_true happlies)
    have hcurrent' := current_of_shown h hmem' (of_decide_eq_true happlies')
    rw [hcs.descends] at hfirst hsecond
    exact hne (end_unique hfirst hsecond hcurrent.2 hcurrent'.2)

end Families

section ChangeRuns

variable {timestamptz : String → Option ℤ} {s s' t t' : ChangeTables} {l : ChangeLabel}
  {cs : List (ℕ × ℕ)} {trace : List (ChangeTables × ChangeLabel)}

theorem Corrected.step (hcs : Corrected t cs) (hmoves : Moves t l t')
    (hcites : CitesCurrent (t, l)) : Corrected t' (cs ++ l.corrections) := by
  intro a n
  rw [hmoves.pointer, List.mem_append, ← hcs a n]
  split_ifs with hnew
  · -- The entry was current, so nothing has corrected it before.
    have hnone : t.pointer a = none := hcites (t.nextId, a) hnew
    rw [hnone]
    constructor
    · intro hn
      exact .inr (Option.some.inj hn ▸ hnew)
    · rintro (hn | hn)
      · cases hn
      · exact congrArg some (hmoves.corrections _ hn).1.symm
  · refine (or_iff_left fun hn => hnew ?_).symm
    rwa [← (hmoves.corrections _ hn).1]

theorem changeLogOk_of_run (h : ChangeLogOk s) (hrun : Run (ChangeStep timestamptz) s trace s') :
    ChangeLogOk s' :=
  (hrun.invariant h fun _ _ _ ht hs => (hs.effect ht).1).1

theorem corrected_of_run (h : ChangeLogOk s) (hcs : Corrected s cs)
    (hrun : Run (ChangeStep timestamptz) s trace s') (hcites : ∀ x ∈ trace, CitesCurrent x) :
    Corrected s' (cs ++ corrections trace) := by
  induction hrun generalizing cs with
  | refl s => simpa [corrections] using hcs
  | @head s t u l trace hs hrun ih =>
    obtain ⟨ht, hmoves⟩ := hs.effect h
    obtain ⟨hfirst, hrest⟩ := List.forall_mem_cons.1 hcites
    have hu := ih ht (hcs.step hmoves hfirst) hrest
    rwa [List.append_assoc] at hu

theorem changeLogOk_empty (hlog : s.changeLog = []) (hscopes : s.scopes = []) :
    ChangeLogOk s ∧ Corrected s [] := by
  have hpointer : ∀ a, s.pointer a = none := by
    intro a
    rw [ChangeTables.pointer, hlog]
    rfl
  refine ⟨⟨?_, ?_, ?_, ?_, ?_, ?_⟩, ?_⟩
  · simp [hlog]
  · simp [hlog]
  · simp [hlog]
  · simp [hpointer]
  · simp [hscopes]
  · simp [hscopes]
  · intro a n
    simp [hpointer]

/-- A correction of a corrected entry changes its pointer. -/
theorem citesCurrent_of_kept {l : ChangeLabel} {u : ChangeTables} (h : ChangeLogOk t)
    (hs : ChangeStep timestamptz t l t') (hkept : PointersKept t u) (hkept' : PointersKept t' u) :
    CitesCurrent (t, l) := by
  rintro ⟨id, cited⟩ hmem
  obtain ⟨-, hmoves⟩ := hs.effect h
  obtain rfl : id = t.nextId := (hmoves.corrections (id, cited) hmem).1
  cases hpointer : t.pointer cited with
  | none => rfl
  | some n =>
    have hnew : t'.pointer cited = some t.nextId := by
      rw [hmoves.pointer, if_pos hmem]
    have hsame := (hkept cited n hpointer).symm.trans (hkept' cited t.nextId hnew)
    refine absurd (h.pointers cited n hpointer).2 ?_
    rw [Option.some.inj hsame]
    exact nextId_notMem h

/-- In every state of a run chains end, families have one current entry and pointers
stay as they were set, exactly where every call that cites an entry cites a current
one. -/
theorem supersession_iff (hlog : s.changeLog = []) (hscopes : s.scopes = [])
    (hrun : Run (ChangeStep timestamptz) s trace s') :
    SupersessionOk timestamptz s trace s' ↔ ∀ x ∈ trace, CitesCurrent x := by
  obtain ⟨hs, hempty⟩ := changeLogOk_empty hlog hscopes
  constructor
  · rintro hok ⟨t, l⟩ hx
    obtain ⟨pre, post, rfl⟩ := List.append_of_mem hx
    obtain ⟨t₀, hpre, hpost⟩ := hrun.split
    cases hpost with
    | @head _ t' _ _ _ hstep hrest =>
      have hkept := (hok pre ((t, l) :: post) t rfl hpre (.head hstep hrest)).2
      have hkept' := (hok (pre ++ [(t, l)]) post t' (by simp) (hpre.append (.single hstep)) hrest).2
      exact citesCurrent_of_kept (changeLogOk_of_run hs hpre) hstep hkept hkept'
  · rintro hcites pre post t rfl hpre hpost
    rw [List.forall_mem_append] at hcites
    have ht := changeLogOk_of_run hs hpre
    have hcs := corrected_of_run hs hempty hpre hcites.1
    rw [List.nil_append] at hcs
    refine ⟨chainsOk_of_corrected ht hcs, fun a n hpointer => ?_⟩
    have hcs' := corrected_of_run ht hcs hpost hcites.2
    exact (hcs' a n).2 (List.mem_append_left _ ((hcs a n).1 hpointer))

end ChangeRuns

/-! ### An entry corrected twice -/

def workspaceKey : Principal where
  workspaceId := 1
  mode := .production
  scope := .workspace
  grantedDeploymentIds := []

def staffingChange (supersedes : Option String) : ChangeEventCreate where
  type := .staffing
  sidedness := .oneSided
  occurredAt := "2026-07-01T00:00:00Z"
  description := "reorganisation"
  deploymentRefs := []
  supersedes := supersedes

/-- The one instant these texts name. -/
def julyFirst (text : String) : Option ℤ :=
  if text = "2026-07-01T00:00:00Z" then some 63918460800000 else none

/-- The tables after these bodies, each with the reference it draws, and the run. -/
def declareAll : List (ChangeEventCreate × String) → ChangeTables →
    Option (List (ChangeTables × ChangeLabel) × ChangeTables)
  | [], t => some ([], t)
  | (body, ref) :: bodies, t =>
    match declareChangeEvent julyFirst workspaceKey body ref t with
    | .ok (_, t') => (declareAll bodies t').map fun x =>
        ((t, .declared t.nextId ((t.cited 1 body.supersedes).map ChangeEntry.id)) :: x.1, x.2)
    | .error _ => none

theorem run_declareAll {bodies : List (ChangeEventCreate × String)} {t t' : ChangeTables}
    {trace : List (ChangeTables × ChangeLabel)}
    (hdrawn : ∀ x ∈ bodies, x.1.supersedes ≠ some x.2)
    (h : declareAll bodies t = some (trace, t')) : Run (ChangeStep julyFirst) t trace t' := by
  induction bodies generalizing t trace with
  | nil =>
    cases h
    exact .refl _
  | cons x bodies ih =>
    obtain ⟨hfirst, hrest⟩ := List.forall_mem_cons.1 hdrawn
    unfold declareAll at h
    split at h
    · rename_i hdeclare
      obtain ⟨⟨rest, last⟩, hlast, heq⟩ := Option.map_eq_some_iff.1 h
      cases heq
      exact .head (.declared hfirst hdeclare) (ih hrest hlast)
    · cases h

def noChanges : ChangeTables := ⟨[], [], [], 1⟩

/-- A change, its correction and a correction of that. -/
theorem supersession_iff_chain : ∃ trace t', Run (ChangeStep julyFirst) noChanges trace t' ∧
    t'.changeLog.length = 3 ∧ SupersessionOk julyFirst noChanges trace t' := by
  let bodies := [(staffingChange none, "ce_a"), (staffingChange (some "ce_a"), "ce_b"),
    (staffingChange (some "ce_b"), "ce_c")]
  have hall : (declareAll bodies noChanges).any fun x =>
      x.2.changeLog.length = 3 ∧ ∀ y ∈ x.1, CitesCurrent y := by decide +kernel
  obtain ⟨⟨trace, t'⟩, hx, hfacts⟩ := (Option.any_eq_true _ _).1 hall
  simp only [decide_eq_true_eq] at hfacts
  have hrun := run_declareAll (by decide) hx
  exact ⟨trace, t', hrun, hfacts.1, (supersession_iff rfl rfl hrun).2 hfacts.2⟩

/-- A change and two corrections of it: the first correction stays current beside the
second, and both are read for July. -/
theorem supersession_twice : ∃ trace t', Run (ChangeStep julyFirst) noChanges trace t' ∧
    ¬ SupersessionOk julyFirst noChanges trace t' ∧ (t'.joined.filter fun r =>
      ChangeRow.Applies Planner.utc.dayOf 1 1 739798 739828 r.2).map Prod.fst = [2, 3] := by
  let bodies := [(staffingChange none, "ce_a"), (staffingChange (some "ce_a"), "ce_b"),
    (staffingChange (some "ce_a"), "ce_c")]
  have hall : (declareAll bodies noChanges).any fun x =>
      x.2.changeLog.map ChangeEntry.id = [1, 2, 3] ∧ x.2.pointer 2 = none ∧
        x.2.pointer 3 = none ∧ corrections x.1 = [(2, 1), (3, 1)] ∧
        (x.2.joined.filter fun r =>
          ChangeRow.Applies Planner.utc.dayOf 1 1 739798 739828 r.2).map Prod.fst = [2, 3] := by
    decide +kernel
  obtain ⟨⟨trace, t'⟩, hx, hfacts⟩ := (Option.any_eq_true _ _).1 hall
  simp only [decide_eq_true_eq] at hfacts
  obtain ⟨hids, hsecond, hthird, hcorrections, hshown⟩ := hfacts
  have hrun := run_declareAll (by decide) hx
  refine ⟨trace, t', hrun, fun hok => ?_, hshown⟩
  obtain ⟨hchains, -⟩ := hok trace [] t' (List.append_nil _).symm hrun (.refl t')
  obtain ⟨e, -, hunique⟩ := hchains.current 1 (by simp [hids]) (by simp [hcorrections])
  have hfirst : Descends (corrections trace) 1 2 ∧ t'.Current 2 :=
    ⟨.single (by simp [hcorrections]), by simp [hids], hsecond⟩
  have hother : Descends (corrections trace) 1 3 ∧ t'.Current 3 :=
    ⟨.single (by simp [hcorrections]), by simp [hids], hthird⟩
  cases (hunique 2 hfirst).trans (hunique 3 hother).symm

end TrueFigure.Server
