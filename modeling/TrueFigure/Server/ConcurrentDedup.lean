import TrueFigure.Library.Termination
import TrueFigure.Server.Reconciliation

/-!
# Duplicate checks under concurrency

Requests and import workers that submit valid events to one workspace, in any
interleaving of their statements. The check and the insert of an event are two
statements, so a second check may come between them; where none does, every
event is answered, and exactly one row stands under each key.
-/
namespace TrueFigure.Server

open TrueFigure.Library TrueFigure.Python

/-! ### The parties -/

inductive Feed
  | request | importJob
  deriving DecidableEq

/-- A request or an import worker with the events it submits; the numbers are the
lines of an import. -/
structure Party (env : Env) (ws : ℕ) (s : Db) where
  feed : Feed
  intake : Intake
  items : List (ℕ × ValidEvent env ws s)
  intake_eq : ∀ item ∈ items, item.2.intake = intake
  fits : feed = .request → items.length ≤ maxBatch
  job : feed = .importJob → intake.principal = jobPrincipal intake.principal.workspaceId

def importCounts (results : List EventResult) : ImportCounts :=
  results.foldl (fun c r => c.count r.status) ⟨0, 0, 0, 0⟩

/-- The result answers the event: accepted, or a duplicate. -/
def Answers {env : Env} {ws : ℕ} {s : Db} (item : ℕ × ValidEvent env ws s) (r : EventResult) :
    Prop :=
  r.toVerdict = acceptedVerdict item.2.key ∨ r.toVerdict = duplicateVerdict item.2.key

theorem renders_of_answers {env : Env} {ws : ℕ} {s : Db} {done : List (ℕ × ValidEvent env ws s)}
    {results : List EventResult} (h : List.Forall₂ Answers done results) :
    ∀ r ∈ results, r.toVerdict.renders = true := by
  intro r hr
  induction h with
  | nil => cases hr
  | @cons item _ _ _ hanswers _ ih =>
    rcases List.mem_cons.1 hr with rfl | hr
    · have hkey := key_encodable item.2.keyed.keyed
      rcases hanswers with h | h <;> rw [h] <;>
        simp [Verdict.renders, Verdict.compliant, Verdict.encodable, Verdict.texts,
          acceptedVerdict, duplicateVerdict, hkey]
    · exact ih hr

namespace Party

variable {env : Env} {ws : ℕ} {s : Db} (p : Party env ws s)

def process : Process :=
  match p.feed with
  | .request => ingestEvents env p.intake (p.items.map fun item => item.2.sub)
  | .importJob => runImport env p.intake (p.items.map fun item => (item.1, some item.2.sub))

/-- The party with these results and the rest of its events before it. -/
def after (rest : List (ℕ × ValidEvent env ws s)) (results : List EventResult) : Process :=
  match p.feed with
  | .request => ingestLoop env p.intake (rest.map fun item => item.2.sub) results
  | .importJob => importLoop env p.intake (rest.map fun item => (item.1, some item.2.sub))
      (importCounts results)

/-- How the party ends with these results. -/
def outcome (results : List EventResult) : Outcome :=
  match p.feed with
  | .request => .results results
  | .importJob => .imported (importCounts results)

theorem process_eq : p.process = p.after p.items [] := by
  unfold process after
  cases hfeed : p.feed with
  | request =>
    have hfits := p.fits hfeed
    simp only [ingestEvents, List.length_map]
    rw [if_neg (by omega)]
  | importJob =>
    simp only [runImport]
    rw [← p.job hfeed]
    rfl

/-- With an event before it the party opens the event's transaction and goes on
with its result. -/
theorem after_cons {item : ℕ × ValidEvent env ws s} (hitem : item.2.intake = p.intake)
    (rest : List (ℕ × ValidEvent env ws s)) (results : List EventResult) :
    ∃ index next,
      p.after (item :: rest) results = .txn (storeOne env item.2.intake index item.2.adm) next ∧
        ∀ r, next (.ok (.result r)) = p.after rest (results ++ [r]) := by
  have hexamine := item.2.keyed.examined
  rw [hitem] at hexamine ⊢
  unfold after
  cases p.feed with
  | request =>
    simp only [List.map_cons, ingestLoop, processOne, hexamine]
    exact ⟨_, _, rfl, fun _ => rfl⟩
  | importJob =>
    simp only [List.map_cons, importLoop, processOne, hexamine]
    refine ⟨_, _, rfl, fun r => ?_⟩
    simp only [importCounts, List.foldl_append, List.foldl_cons, List.foldl_nil]

/-- With every event answered the party is done. -/
theorem after_nil {done : List (ℕ × ValidEvent env ws s)} {results : List EventResult}
    (h : List.Forall₂ Answers done results) : p.after [] results = .done (p.outcome results) := by
  unfold after outcome
  cases p.feed with
  | request =>
    have hrenders : renderError results = none := by
      have hall := renders_of_answers h
      simp only [Verdict.renders, Bool.and_eq_true] at hall
      unfold renderError
      rw [if_neg, if_neg]
      · simpa using fun r hr => (hall r hr).2
      · simpa using fun r hr => (hall r hr).1
    simp only [List.map_nil, ingestLoop, respond, hrenders]
  | importJob => rfl

end Party

/-! ### One event in its transaction -/

namespace ValidEvent

variable {env : Env} {ws : ℕ} {s t : Db} (e : ValidEvent env ws s) (index : ℕ)

def acceptedResult : EventResult := { acceptedVerdict e.key with index := index }

def duplicateResult : EventResult := { duplicateVerdict e.key with index := index }

/-- The insert of an event whose check found nothing. -/
def insertion : Transaction :=
  .write (.event ws e.key e.adm.occurredAt) (fun before => liftDb (insertNew e.row before))
    fun _ => .pure (.result (e.acceptedResult index))

/-- The end of the event's transaction: check, then insert. -/
theorem storeOrEcho_eq :
    storeOrEcho e.intake index e.adm e.dep e.key = .read fun t =>
      if hasEvent t ws e.key then .pure (.result (e.duplicateResult index))
      else e.insertion index := by
  have hvalues : eventValues e.intake e.adm e.dep = .ok e.row := by
    simp only [eventValues, e.typed, e.originated, e.storable, if_true, row]
  unfold storeOrEcho
  simp only [e.production, Bool.false_eq_true, if_false, insertEvent, hvalues]
  rw [e.workspace]
  rfl

/-- At these rows the event passes the checks before its key. -/
theorem storeOne_eq : ∃ next, storeOne env e.intake index e.adm = .read next ∧
    ∀ t, SameConfig s t → next t = checkNamespaces env e.intake e.dep.id
      (storeOrEcho e.intake index e.adm e.dep e.key) (idFields e.adm.payload) := by
  simp only [storeOne, resolveDep, textArgument_ok e.keyed.text, e.keyed.keyed]
  refine ⟨_, rfl, fun t hconfig => ?_⟩
  have hkeyed := e.keyed.congr hconfig
  simp only [hkeyed.found, admitDeployment, hkeyed.granted, hkeyed.running, Bool.not_true,
    Bool.false_eq_true, if_false]

/-- Where the transaction of an event stands, with what it relies on in the
committed rows. -/
inductive Serving (t : Db) : List (Change Row) → Transaction → Prop
  | resolving : Serving t [] (storeOne env e.intake index e.adm)
  | checking (fields : List (IdField × PyStr))
      (h : namespaceFault env e.intake s e.dep.id fields = none) :
      Serving t [] (checkNamespaces env e.intake e.dep.id
        (storeOrEcho e.intake index e.adm e.dep e.key) fields)
  | inserting (h : hasEvent t ws e.key = false) : Serving t [] (e.insertion index)
  | inserted (h : hasEvent t ws e.key = false) :
      Serving t [⟨.event ws e.key e.adm.occurredAt, none, e.row⟩]
        (.pure (.result (e.acceptedResult index)))
  | found (h : hasEvent t ws e.key = true) :
      Serving t [] (.pure (.result (e.duplicateResult index)))

end ValidEvent

/-! ### Checks beside open inserts -/

section Sessions

variable (ws : ℕ) (key : PyStr)

/-- The process has found no row under the key and has not committed its own. -/
def Inserting : Station Row Failure Reply Outcome → Prop
  | .resting _ => False
  | .inside log rest _ => ∃ at', RowKey.event ws key at' ∈ locked log ∨
      ∃ update next, rest = .write (.event ws key at') update next

/-- The process is about to look for a row under the key. -/
def Checking : Station Row Failure Reply Outcome → Prop
  | .resting _ => False
  | .inside _ rest _ => ∃ intake index adm dep, intake.principal.workspaceId = ws ∧
      intake.principal.isTest = false ∧ rest = storeOrEcho intake index adm dep key

variable {ι : Type} [DecidableEq ι]

/-- A step of some process that looks for no row which another is inserting. -/
def CarefulStep (w w' : World ι Row Failure Reply Outcome) : Prop :=
  ∃ i, Step (fun _ => False) i w w' ∧
    ∀ key, Checking ws key (w.stations i) → ∀ j, j ≠ i → ¬ Inserting ws key (w.stations j)

end Sessions

theorem checkNamespaces_step {env : Env} {intake : Intake} {s t : Db} {deploymentId : ℕ}
    {next : Transaction} {f : IdField × PyStr} {fields : List (IdField × PyStr)}
    (hconfig : SameConfig s t)
    (hfault : namespaceFault env intake s deploymentId (f :: fields) = none) :
    namespaceFault env intake s deploymentId fields = none ∧
      ∃ body, checkNamespaces env intake deploymentId next (f :: fields) = .read body ∧
        body t = checkNamespaces env intake deploymentId next fields := by
  rw [hconfig.namespaceFault] at hfault ⊢
  simp only [namespaceFault, List.findSome?_cons] at hfault ⊢
  split at hfault
  · cases hfault
  · rename_i hnone
    refine ⟨hfault, _, rfl, ?_⟩
    simp only [hnone]

section Closed

variable {ws : ℕ} {key : PyStr} {next : Except Failure Reply → Process}

theorem not_inserting_read {f : Db → Transaction} :
    ¬ Inserting ws key (.inside [] (.read f) next) := by
  rintro ⟨at', hlock | ⟨update, next', hwrite⟩⟩
  · cases hlock
  · cases hwrite

theorem not_inserting_pure {a : Reply} : ¬ Inserting ws key (.inside [] (.pure a) next) := by
  rintro ⟨at', hlock | ⟨update, next', hwrite⟩⟩
  · cases hlock
  · cases hwrite

theorem inserting_of_lock {st : Station Row Failure Reply Outcome} {at' : ℤ}
    (h : RowKey.event ws key at' ∈ st.locks) : Inserting ws key st := by
  cases st with
  | resting p => cases h
  | inside log body next => exact ⟨at', .inl h⟩

theorem Checking.read {log : List (Change Row)} {body : Transaction}
    (h : Checking ws key (.inside log body next)) : ∃ f, body = .read f := by
  obtain ⟨intake, index, adm, dep, -, hproduction, rfl⟩ := h
  unfold storeOrEcho
  simp [hproduction]

end Closed

namespace ValidEvent

variable {env : Env} {ws : ℕ} {s t : Db} {e : ValidEvent env ws s} {index : ℕ} {key : PyStr}
  {next : Except Failure Reply → Process}

/-- Before its check has found nothing the event inserts nothing. -/
theorem not_inserting_checks {fields : List (IdField × PyStr)} :
    ¬ Inserting ws key (.inside [] (checkNamespaces env e.intake e.dep.id
      (storeOrEcho e.intake index e.adm e.dep e.key) fields) next) := by
  cases fields with
  | nil =>
    rw [checkNamespaces, e.storeOrEcho_eq index]
    exact not_inserting_read
  | cons f fields => exact not_inserting_read

theorem inserting_insertion_iff :
    Inserting ws key (.inside [] (e.insertion index) next) ↔ key = e.key := by
  constructor
  · rintro ⟨at', hlock | ⟨update, next', hwrite⟩⟩
    · cases hlock
    · cases hwrite
      rfl
  · rintro rfl
    exact ⟨_, .inr ⟨_, _, rfl⟩⟩

theorem inserting_inserted_iff {a : Reply} :
    Inserting ws key (.inside [⟨.event ws e.key e.adm.occurredAt, none, e.row⟩] (.pure a) next) ↔
      key = e.key := by
  constructor
  · rintro ⟨at', hlock | ⟨update, next', hwrite⟩⟩
    · simp only [locked, List.map_cons, List.map_nil, List.mem_singleton] at hlock
      exact (RowKey.event.inj hlock).2.1
    · cases hwrite
  · rintro rfl
    exact ⟨_, .inl List.mem_cons_self⟩

/-- An event inserts under its own key, and only while no row stands under it. -/
theorem Serving.of_inserting {log : List (Change Row)} {body : Transaction}
    (h : e.Serving index t log body) (hopen : Inserting ws key (.inside log body next)) :
    key = e.key ∧ hasEvent t ws e.key = false := by
  cases h with
  | resolving =>
    obtain ⟨f, hf, -⟩ := e.storeOne_eq index
    rw [hf] at hopen
    exact absurd hopen not_inserting_read
  | checking fields hfault => exact absurd hopen not_inserting_checks
  | inserting hnew => exact ⟨inserting_insertion_iff.1 hopen, hnew⟩
  | inserted hnew => exact ⟨inserting_inserted_iff.1 hopen, hnew⟩
  | found => exact absurd hopen not_inserting_pure

end ValidEvent

/-! ### A party among others -/

/-- The events before the party's station have these results and are stored. -/
structure Answered {env : Env} {ws : ℕ} {s : Db} (t : Db) (done : List (ℕ × ValidEvent env ws s))
    (results : List EventResult) : Prop where
  answers : List.Forall₂ Answers done results
  stored : ∀ item ∈ done, hasEvent t ws item.2.key = true

namespace Party

variable {env : Env} {ws : ℕ} {s : Db} (p : Party env ws s)

/-- Where the party stands once it has these results, at these committed rows. -/
inductive At (t : Db) (results : List EventResult) : Station Row Failure Reply Outcome → Prop
  | between {done rest : List (ℕ × ValidEvent env ws s)} (hitems : done ++ rest = p.items)
      (hdone : Answered t done results) : At t results (.resting (p.after rest results))
  | serving {done rest : List (ℕ × ValidEvent env ws s)} {item : ℕ × ValidEvent env ws s}
      {index : ℕ} {log : List (Change Row)} {body : Transaction}
      {next : Except Failure Reply → Process} (hitems : done ++ item :: rest = p.items)
      (hdone : Answered t done results) (hserving : item.2.Serving index t log body)
      (hnext : ∀ r, next (.ok (.result r)) = p.after rest (results ++ [r])) :
      At t results (.inside log body next)

variable {p}

theorem At.start {t : Db} {done rest : List (ℕ × ValidEvent env ws s)} {results : List EventResult}
    {body : Transaction} {next : Except Failure Reply → Process} (hitems : done ++ rest = p.items)
    (hdone : Answered t done results) (h : p.after rest results = .txn body next) :
    p.At t results (.inside [] body next) ∧ ∃ f, body = .read f := by
  cases rest with
  | nil => cases (p.after_nil hdone.answers).symm.trans h
  | cons item rest =>
    have hintake : item.2.intake = p.intake := p.intake_eq item (by rw [← hitems]; simp)
    obtain ⟨index, next', heq, hnext⟩ := p.after_cons hintake rest results
    cases heq.symm.trans h
    obtain ⟨f, hf, -⟩ := item.2.storeOne_eq index
    exact ⟨.serving hitems hdone .resolving hnext, f, hf⟩

/-- With its event answered the party is between two events again. -/
theorem At.answer {t : Db} {done rest : List (ℕ × ValidEvent env ws s)}
    {item : ℕ × ValidEvent env ws s} {results : List EventResult} {r : EventResult}
    (hitems : done ++ item :: rest = p.items) (hdone : Answered t done results)
    (hanswers : Answers item r) (hstored : hasEvent t ws item.2.key = true) :
    p.At t (results ++ [r]) (.resting (p.after rest (results ++ [r]))) := by
  have hitems' : (done ++ [item]) ++ rest = p.items := by simpa using hitems
  refine .between hitems' ⟨?_, ?_⟩
  · exact List.rel_append hdone.answers (.cons hanswers .nil)
  · intro item' hitem'
    rcases List.mem_append.1 hitem' with h | h
    · exact hdone.stored item' h
    · rw [List.mem_singleton.1 h]
      exact hstored

variable {ι : Type} [DecidableEq ι]

/-- What a step makes of the world and of the party's results. -/
inductive Move (p : Party env ws s) (i : ι) (w : World ι Row Failure Reply Outcome)
    (results : List EventResult) : World ι Row Failure Reply Outcome → List EventResult → Prop
  | quiet {st : Station Row Failure Reply Outcome} (hat : p.At w.committed results st)
      (hopen : ∀ key, Inserting ws key st →
        Inserting ws key (w.stations i) ∨ Checking ws key (w.stations i)) :
      Move p i w results (w.move i st) results
  | duplicate {st : Station Row Failure Reply Outcome} {r : EventResult}
      (hstatus : r.status = .duplicate) (hclosed : ∀ key, ¬ Inserting ws key st)
      (hat : p.At w.committed (results ++ [r]) st) :
      Move p i w results (w.move i st) (results ++ [r])
  | accept {st : Station Row Failure Reply Outcome} (e : ValidEvent env ws s) (index : ℕ)
      (hnew : hasEvent w.committed ws e.key = false) (hopen : Inserting ws e.key (w.stations i))
      (hclosed : ∀ key, ¬ Inserting ws key st)
      (hat : p.At (w.committed.insert (.event ws e.key e.adm.occurredAt) e.row)
        (results ++ [e.acceptedResult index]) st) :
      Move p i w results
        (({ w with committed := w.committed.insert (.event ws e.key e.adm.occurredAt) e.row } :
          World ι Row Failure Reply Outcome).move i st)
        (results ++ [e.acceptedResult index])

variable {i : ι} {w w' : World ι Row Failure Reply Outcome} {results : List EventResult}

theorem At.step (hat : p.At w.committed results (w.stations i))
    (hconfig : SameConfig s w.committed) (hs : Step (fun _ => False) i w w') :
    ∃ results', Move p i w results w' results' := by
  generalize hst : w.stations i = st at hat
  cases hat with
  | between hitems hdone =>
    obtain ⟨body, next, hp, rfl⟩ := hs.of_resting hst
    obtain ⟨hat, f, rfl⟩ := At.start hitems hdone hp
    exact ⟨_, .quiet hat fun key hopen => absurd hopen not_inserting_read⟩
  | @serving done rest item index log body next hitems hdone hserving hnext =>
    cases hserving with
    | resolving =>
      obtain ⟨f, hf, hnamespaces⟩ := item.2.storeOne_eq index
      rw [hf] at hst
      rw [hs.of_read hst, view_nil, hnamespaces _ hconfig]
      exact ⟨_, .quiet (.serving hitems hdone (.checking _ item.2.keyed.formats) hnext)
        fun key hopen => absurd hopen ValidEvent.not_inserting_checks⟩
    | checking fields hfault =>
      cases fields with
      | nil =>
        have hchecking : Checking ws item.2.key (w.stations i) := by
          rw [hst]
          exact ⟨_, _, _, _, item.2.workspace, item.2.production, rfl⟩
        rw [checkNamespaces, item.2.storeOrEcho_eq index] at hst
        rw [hs.of_read hst, view_nil]
        split_ifs with hfound
        · exact ⟨_, .quiet (.serving hitems hdone (.found hfound) hnext)
            fun key hopen => absurd hopen not_inserting_pure⟩
        · refine ⟨_, .quiet (.serving hitems hdone (.inserting (eq_false_of_ne_true hfound)) hnext)
            fun key hopen => .inr ?_⟩
          rw [ValidEvent.inserting_insertion_iff.1 hopen]
          exact hchecking
      | cons f fields =>
        obtain ⟨hrest, body, hread, hbody⟩ := checkNamespaces_step hconfig hfault
        rw [hread] at hst
        rw [hs.of_read hst, view_nil, hbody]
        exact ⟨_, .quiet (.serving hitems hdone (.checking _ hrest) hnext)
          fun key hopen => absurd hopen ValidEvent.not_inserting_checks⟩
    | inserting hnew =>
      have hnone := lookup_event_of_not_hasEvent hnew item.2.adm.occurredAt
      have hinserting : Inserting ws item.2.key (w.stations i) := by
        rw [hst]
        exact ValidEvent.inserting_insertion_iff.2 rfl
      rcases hs.of_write hst with ⟨row, hrow, rfl⟩ | ⟨e, he, -⟩
      · rw [view_nil, hnone] at hrow ⊢
        obtain rfl : item.2.row = row := by simpa [insertNew, liftDb] using hrow
        refine ⟨_, .quiet (.serving hitems hdone (.inserted hnew) hnext) fun key hopen => .inl ?_⟩
        rw [ValidEvent.inserting_inserted_iff.1 hopen]
        exact hinserting
      · rw [view_nil, hnone] at he
        cases he
    | inserted hnew =>
      have hinserting : Inserting ws item.2.key (w.stations i) := by
        rw [hst]
        exact ValidEvent.inserting_inserted_iff.2 rfl
      rw [hs.of_pure hst, hnext]
      refine ⟨_, .accept item.2 index hnew hinserting (fun _ hopen => hopen) ?_⟩
      refine .answer hitems ⟨hdone.answers, fun item' hitem' => ?_⟩ (.inl rfl)
        (hasEvent_insert.2 (.inr rfl))
      exact hasEvent_insert.2 (.inl (hdone.stored item' hitem'))
    | found hfound =>
      rw [hs.of_pure hst, hnext]
      exact ⟨_, .duplicate rfl (fun _ hopen => hopen) (.answer hitems hdone (.inr rfl) hfound)⟩

/-- A new row under a key that the party is not inserting changes nothing for it. -/
theorem At.insert {t : Db} {st : Station Row Failure Reply Outcome} {key : PyStr} {at' : ℤ}
    {row : EventRow} (hat : p.At t results st) (hclosed : ¬ Inserting ws key st) :
    p.At (t.insert (.event ws key at') row) results st := by
  have hmono : ∀ key', hasEvent t ws key' = true →
      hasEvent (t.insert (.event ws key at') row) ws key' = true :=
    fun key' h => hasEvent_insert.2 (.inl h)
  cases hat with
  | between hitems hdone =>
    exact .between hitems ⟨hdone.answers, fun item hitem => hmono _ (hdone.stored item hitem)⟩
  | @serving done rest item index log body next hitems hdone hserving hnext =>
    have hnew : ∀ key', hasEvent t ws key' = false → key' ≠ key →
        hasEvent (t.insert (.event ws key at') row) ws key' = false := by
      intro key' hnone hne
      rw [Bool.eq_false_iff, ne_eq, hasEvent_insert]
      simp [hnone, hne.symm]
    have hserving' : item.2.Serving index (t.insert (.event ws key at') row) log body := by
      cases hserving with
      | resolving => exact .resolving
      | checking fields hfault => exact .checking fields hfault
      | inserting hnone =>
        refine .inserting (hnew _ hnone fun heq => hclosed ?_)
        exact ValidEvent.inserting_insertion_iff.2 heq.symm
      | inserted hnone =>
        refine .inserted (hnew _ hnone fun heq => hclosed ?_)
        exact ValidEvent.inserting_inserted_iff.2 heq.symm
      | found hfound => exact .found (hmono _ hfound)
    exact .serving hitems ⟨hdone.answers, fun item hitem => hmono _ (hdone.stored item hitem)⟩
      hserving' hnext

/-- The party is done and every event of it answered. -/
structure Finished (p : Party env ws s) (t : Db) (results : List EventResult)
    (st : Station Row Failure Reply Outcome) : Prop extends Answered t p.items results where
  done : st = .resting (.done (p.outcome results))

theorem At.finished {t : Db} {o : Outcome} (hat : p.At t results (.resting (.done o))) :
    p.Finished t results (.resting (.done o)) := by
  generalize hst : (Station.resting (.done o) : Station Row Failure Reply Outcome) = st at hat
  cases hat with
  | @between done rest hitems hdone =>
    have hafter := (Station.resting.inj hst).symm
    cases rest with
    | nil =>
      rw [List.append_nil] at hitems
      subst hitems
      rw [p.after_nil hdone.answers] at hafter ⊢
      exact ⟨hdone, rfl⟩
    | cons item rest =>
      have hintake : item.2.intake = p.intake := p.intake_eq item (by rw [← hitems]; simp)
      obtain ⟨index, next, heq, -⟩ := p.after_cons hintake rest results
      cases heq.symm.trans hafter
  | serving => cases hst

/-- A party with no insert open can go on, or is done. -/
theorem At.live (hat : p.At w.committed results (w.stations i))
    (hclosed : ∀ key, ¬ Inserting ws key (w.stations i)) :
    p.Finished w.committed results (w.stations i) ∨ ∃ w', Step (fun _ => False) i w w' := by
  generalize hst : w.stations i = st at hat hclosed
  cases hat with
  | @between done rest hitems hdone =>
    cases hafter : p.after rest results with
    | done o =>
      have hat : p.At w.committed results (.resting (p.after rest results)) := .between hitems hdone
      rw [hafter] at hat
      exact .inl hat.finished
    | txn body next =>
      rw [hafter] at hst
      exact .inr ⟨_, .start hst⟩
  | @serving done rest item index log body next hitems hdone hserving hnext =>
    right
    cases hserving with
    | resolving =>
      obtain ⟨f, hf, -⟩ := item.2.storeOne_eq index
      rw [hf] at hst
      exact ⟨_, .read hst⟩
    | checking fields hfault =>
      cases fields with
      | nil =>
        rw [checkNamespaces, item.2.storeOrEcho_eq index] at hst
        exact ⟨_, .read hst⟩
      | cons f fields => exact ⟨_, .read hst⟩
    | inserting hnew => exact absurd (ValidEvent.inserting_insertion_iff.2 rfl) (hclosed _)
    | inserted hnew => exact absurd (ValidEvent.inserting_inserted_iff.2 rfl) (hclosed _)
    | found hfound => exact ⟨_, .commit hst⟩

/-- A party with an insert open can go on where the others hold no such row, and
is looking for none. -/
theorem At.live_of_inserting {key : PyStr} (hat : p.At w.committed results (w.stations i))
    (hopen : Inserting ws key (w.stations i))
    (hexclusive : ∀ j, j ≠ i → ¬ Inserting ws key (w.stations j)) :
    (∃ w', Step (fun _ => False) i w w') ∧ ∀ key', ¬ Checking ws key' (w.stations i) := by
  generalize hst : w.stations i = st at hat hopen
  cases hat with
  | between => exact hopen.elim
  | @serving done rest item index log body next hitems hdone hserving hnext =>
    obtain ⟨rfl, hnew⟩ := hserving.of_inserting hopen
    cases hserving with
    | resolving =>
      obtain ⟨f, hf, -⟩ := item.2.storeOne_eq index
      rw [hf] at hopen
      exact absurd hopen not_inserting_read
    | checking => exact absurd hopen ValidEvent.not_inserting_checks
    | inserting =>
      have hfree : w.Free i (.event ws item.2.key item.2.adm.occurredAt) := by
        intro j hj hlock
        exact hexclusive j hj (inserting_of_lock hlock)
      have hrow : liftDb (insertNew item.2.row ((view [] w.committed).lookup
          (.event ws item.2.key item.2.adm.occurredAt))) = .ok item.2.row := by
        rw [view_nil, lookup_event_of_not_hasEvent hnew]
        rfl
      refine ⟨⟨_, .write hst hfree hrow⟩, fun key' hcheck => ?_⟩
      obtain ⟨f, hf⟩ := hcheck.read
      cases hf
    | inserted =>
      refine ⟨⟨_, .commit hst⟩, fun key' hcheck => ?_⟩
      obtain ⟨f, hf⟩ := hcheck.read
      cases hf
    | found => exact absurd hopen not_inserting_pure

end Party

/-! ### All parties -/

section Parties

variable {ι : Type} [DecidableEq ι] {env : Env} {ws : ℕ} {s : Db}

/-- The party has accepted an event of this key as its `n`-th. -/
def AcceptedAt (results : ι → List EventResult) (key : PyStr) (a : ι × ℕ) : Prop :=
  ∃ r, (results a.1)[a.2]? = some r ∧ r.status = .accepted ∧ r.eventKey = some key

/-- The rows under the key are the old ones and nothing was accepted, or there was
none and the one that was accepted is now the only one. -/
inductive Stored (s t : Db) (ws : ℕ) (results : ι → List EventResult) (key : PyStr) : Prop
  | kept (hrows : ∀ at', t.lookup (.event ws key at') = s.lookup (.event ws key at'))
      (hnone : ∀ a, ¬ AcceptedAt results key a) : Stored s t ws results key
  | once (hnew : hasEvent s ws key = false)
      (hrow : ∃! at', (t.lookup (.event ws key at')).isSome)
      (haccepted : ∃! a, AcceptedAt results key a) : Stored s t ws results key

/-- The invariant of the careful runs. -/
structure DedupOk (parties : ι → Party env ws s) (w : World ι Row Failure Reply Outcome)
    (results : ι → List EventResult) : Prop where
  config : SameConfig s w.committed
  party : ∀ i, (parties i).At w.committed (results i) (w.stations i)
  exclusive : ∀ i j key, Inserting ws key (w.stations i) → Inserting ws key (w.stations j) → i = j
  stored : ∀ key, Stored s w.committed ws results key

theorem acceptedAt_update {results : ι → List EventResult} {i : ι} {r : EventResult} {key : PyStr}
    {a : ι × ℕ} : AcceptedAt (Function.update results i (results i ++ [r])) key a ↔
      AcceptedAt results key a ∨
        (a = (i, (results i).length) ∧ r.status = .accepted ∧ r.eventKey = some key) := by
  obtain ⟨j, n⟩ := a
  unfold AcceptedAt
  by_cases hj : j = i
  · subst hj
    simp only [Function.update_self, Prod.mk.injEq, true_and]
    rw [List.getElem?_append]
    by_cases hn : n < (results j).length
    · simp only [if_pos hn]
      have hne : n ≠ (results j).length := by omega
      simp [hne]
    · have hnone : (results j)[n]? = none := List.getElem?_eq_none (by omega)
      simp only [if_neg hn, hnone, reduceCtorEq, false_and, exists_false, false_or]
      by_cases heq : n = (results j).length
      · simp [heq]
      · have : n - (results j).length ≠ 0 := by omega
        simp [heq, this]
  · simp [hj]

variable {parties : ι → Party env ws s} {w w' : World ι Row Failure Reply Outcome}
  {results : ι → List EventResult} {i : ι} {st : Station Row Failure Reply Outcome}

/-- A result other than an acceptance changes no count. -/
theorem Stored.answer {t : Db} {key : PyStr} {r : EventResult} (h : Stored s t ws results key)
    (hr : r.status = .accepted → r.eventKey ≠ some key) :
    Stored s t ws (Function.update results i (results i ++ [r])) key := by
  have hsame : ∀ a, AcceptedAt (Function.update results i (results i ++ [r])) key a ↔
      AcceptedAt results key a := by
    intro a
    rw [acceptedAt_update, or_iff_left]
    rintro ⟨-, hstatus, hkey⟩
    exact hr hstatus hkey
  cases h with
  | kept hrows hnone => exact .kept hrows fun a ha => hnone a ((hsame a).1 ha)
  | once hnew hrow haccepted =>
    refine .once hnew hrow ?_
    simpa only [hsame] using haccepted

/-- The first row under its key, and its acceptance. -/
theorem Stored.accept {t : Db} (h : ∀ key, Stored s t ws results key) (e : ValidEvent env ws s)
    (index : ℕ) (hnew : hasEvent t ws e.key = false) (key : PyStr) :
    Stored s (t.insert (.event ws e.key e.adm.occurredAt) e.row) ws
      (Function.update results i (results i ++ [e.acceptedResult index])) key := by
  by_cases hkey : key = e.key
  · subst hkey
    have hempty := lookup_event_of_not_hasEvent hnew
    cases h e.key with
    | kept hrows hnone =>
      refine .once ?_ ⟨e.adm.occurredAt, by simp, fun at' hat' => ?_⟩
        ⟨(i, (results i).length), acceptedAt_update.2 (.inr ⟨rfl, rfl, rfl⟩), fun a ha => ?_⟩
      · rw [Bool.eq_false_iff, ne_eq, hasEvent_iff]
        rintro ⟨at', hat'⟩
        simp [← hrows, hempty] at hat'
      · by_contra hne
        have hother : RowKey.event ws e.key at' ≠ .event ws e.key e.adm.occurredAt := by
          simpa using hne
        simp only [AList.lookup_insert_ne hother, hempty] at hat'
        cases hat'
      · rcases acceptedAt_update.1 ha with ha | ha
        · exact absurd ha (hnone a)
        · exact ha.1
    | once _ hrow _ =>
      obtain ⟨at', hat', -⟩ := hrow
      simp [hempty] at hat'
  · have hother : ∀ at', (t.insert (.event ws e.key e.adm.occurredAt) e.row).lookup
        (.event ws key at') = t.lookup (.event ws key at') :=
      fun at' => AList.lookup_insert_ne (by simp [hkey])
    have hanswer : Stored s t ws
        (Function.update results i (results i ++ [e.acceptedResult index])) key :=
      (h key).answer fun _ heq => hkey (Option.some.inj heq).symm
    cases hanswer with
    | kept hrows hnone => exact .kept (fun at' => (hother at').trans (hrows at')) hnone
    | once hnone hrow haccepted =>
      refine .once hnone ?_ haccepted
      simpa only [hother] using hrow

namespace DedupOk

/-- The party's new station clashes with no open insert. -/
theorem exclusive_move (hok : DedupOk parties w results)
    (h : ∀ key, Inserting ws key st → ∀ j, j ≠ i → ¬ Inserting ws key (w.stations j)) :
    ∀ a b key, Inserting ws key ((w.move i st).stations a) →
      Inserting ws key ((w.move i st).stations b) → a = b := by
  intro a b key ha hb
  by_cases hai : a = i <;> by_cases hbi : b = i
  · rw [hai, hbi]
  · rw [hai, World.move_stations_self] at ha
    rw [World.move_stations_of_ne _ _ hbi] at hb
    exact absurd hb (h key ha b hbi)
  · rw [hbi, World.move_stations_self] at hb
    rw [World.move_stations_of_ne _ _ hai] at ha
    exact absurd ha (h key hb a hai)
  · rw [World.move_stations_of_ne _ _ hai] at ha
    rw [World.move_stations_of_ne _ _ hbi] at hb
    exact hok.exclusive a b key ha hb

theorem step (hok : DedupOk parties w results) (hs : CarefulStep ws w w') :
    ∃ results', DedupOk parties w' results' := by
  obtain ⟨i, hs, hcareful⟩ := hs
  obtain ⟨rs, hmove⟩ := (hok.party i).step hok.config hs
  cases hmove with
  | quiet hat hopen =>
    refine ⟨results, hok.config, fun j => ?_, hok.exclusive_move ?_, hok.stored⟩
    · by_cases hj : j = i
      · subst hj
        rwa [World.move_stations_self]
      · rw [World.move_stations_of_ne _ _ hj]
        exact hok.party j
    · intro key hkey j hj hjkey
      rcases hopen key hkey with h | h
      · exact hj (hok.exclusive j i key hjkey h)
      · exact hcareful key h j hj hjkey
  | @duplicate st r hstatus hclosed hat =>
    refine ⟨Function.update results i (results i ++ [r]), hok.config, fun j => ?_,
      hok.exclusive_move fun key hkey => absurd hkey (hclosed key),
      fun key => (hok.stored key).answer fun h => ?_⟩
    · by_cases hj : j = i
      · subst hj
        rwa [World.move_stations_self, Function.update_self]
      · rw [World.move_stations_of_ne _ _ hj, Function.update_of_ne hj]
        exact hok.party j
    · cases hstatus.symm.trans h
  | @accept st e index hnew hopen hclosed hat =>
    refine ⟨Function.update results i (results i ++ [e.acceptedResult index]), ?_, fun j => ?_,
      hok.exclusive_move fun key hkey => absurd hkey (hclosed key),
      Stored.accept hok.stored e index hnew⟩
    · intro k hk hevent
      rw [World.move_committed, AList.lookup_insert_ne (hevent _ _ _)]
      exact hok.config k hk hevent
    · by_cases hj : j = i
      · subst hj
        rwa [World.move_stations_self, Function.update_self]
      · rw [World.move_stations_of_ne _ _ hj, Function.update_of_ne hj]
        exact (hok.party j).insert fun hkey => hj (hok.exclusive j i _ hkey hopen)

/-- A careful run is never stuck before every party is done. -/
theorem progress (hok : DedupOk parties w results) : (∃ w', CarefulStep ws w w') ∨
    ∀ i, (parties i).Finished w.committed (results i) (w.stations i) := by
  by_cases hopen : ∃ i key, Inserting ws key (w.stations i)
  · obtain ⟨i, key, hopen⟩ := hopen
    obtain ⟨⟨w', hs⟩, hchecks⟩ := (hok.party i).live_of_inserting hopen fun j hj hjkey =>
      hj (hok.exclusive j i key hjkey hopen)
    exact .inl ⟨w', i, hs, fun key' hcheck => absurd hcheck (hchecks key')⟩
  · by_cases hdone : ∀ i, (parties i).Finished w.committed (results i) (w.stations i)
    · exact .inr hdone
    · obtain ⟨i, hi⟩ := not_forall.1 hdone
      have hclosed : ∀ j key, ¬ Inserting ws key (w.stations j) :=
        fun j key h => hopen ⟨j, key, h⟩
      obtain ⟨w', hs⟩ := ((hok.party i).live (hclosed i)).resolve_left hi
      exact .inl ⟨w', i, hs, fun key _ j _ => hclosed j key⟩

theorem run (hok : DedupOk parties w results)
    (hr : Relation.ReflTransGen (CarefulStep ws) w w') : ∃ results', DedupOk parties w' results' := by
  induction hr with
  | refl => exact ⟨results, hok⟩
  | tail _ hs ih =>
    obtain ⟨results', hok'⟩ := ih
    exact hok'.step hs

end DedupOk

end Parties

/-! ### Careful runs -/

/-- All parties are done with a result for every event. Under each key there are
the old rows and no acceptance, or, where there was none, one row and one
acceptance. -/
structure Deduplicated {ι : Type} {env : Env} {ws : ℕ} {s : Db} (parties : ι → Party env ws s)
    (w : World ι Row Failure Reply Outcome) (results : ι → List EventResult) : Prop where
  done : ∀ i, w.stations i = .resting (.done ((parties i).outcome (results i)))
  answered : ∀ i, List.Forall₂ Answers (parties i).items (results i)
  old : ∀ i, ∀ item ∈ (parties i).items, hasEvent s ws item.2.key = true →
    (∀ at', w.committed.lookup (.event ws item.2.key at') =
      s.lookup (.event ws item.2.key at')) ∧ ∀ a, ¬ AcceptedAt results item.2.key a
  new : ∀ i, ∀ item ∈ (parties i).items, hasEvent s ws item.2.key = false →
    (∃! at', (w.committed.lookup (.event ws item.2.key at')).isSome) ∧
      ∃! a, AcceptedAt results item.2.key a

section Runs

variable {ι : Type} {env : Env} {ws : ℕ} {s : Db}
  {parties : ι → Party env ws s} {w w' : World ι Row Failure Reply Outcome}
  {results : ι → List EventResult}

theorem DedupOk.deduplicated (hok : DedupOk parties w results)
    (h : ∀ i, (parties i).Finished w.committed (results i) (w.stations i)) :
    Deduplicated parties w results where
  done i := (h i).done
  answered i := (h i).answers
  old i item hitem hold := by
    cases hok.stored item.2.key with
    | kept hrows hnone => exact ⟨hrows, hnone⟩
    | once hnew _ _ => cases hold.symm.trans hnew
  new i item hitem hnew := by
    cases hok.stored item.2.key with
    | kept hrows hnone =>
      obtain ⟨at', hat'⟩ := hasEvent_iff.1 ((h i).stored item hitem)
      rw [hrows, lookup_event_of_not_hasEvent hnew] at hat'
      cases hat'
    | once _ hrow haccepted => exact ⟨hrow, haccepted⟩

theorem dedupOk_start (hcommitted : w.committed = s)
    (hstart : ∀ i, w.stations i = .resting (parties i).process) :
    DedupOk parties w fun _ => [] where
  config := by
    rw [hcommitted]
    exact fun _ _ _ => rfl
  party i := by
    rw [hstart, Party.process_eq]
    exact .between (List.nil_append _) ⟨.nil, fun item hitem => by cases hitem⟩
  exclusive i j key hi := by
    rw [hstart] at hi
    exact hi.elim
  stored key := by
    refine .kept (fun at' => by rw [hcommitted]) ?_
    rintro a ⟨r, hr, -⟩
    cases hr

variable [DecidableEq ι]

end Runs

/-! ### Two requests at once -/

section Race

variable {ι : Type} [DecidableEq ι] {env : Env} {ws : ℕ} {s : Db} {i : ι}
  {w : World ι Row Failure Reply Outcome} {index : ℕ} {next : Except Failure Reply → Process}

theorem reachable_check (e : ValidEvent env ws s) (hconfig : SameConfig s w.committed)
    {fields : List (IdField × PyStr)}
    (hfault : namespaceFault env e.intake s e.dep.id fields = none)
    (hi : w.stations i = .inside [] (checkNamespaces env e.intake e.dep.id
      (storeOrEcho e.intake index e.adm e.dep e.key) fields) next) :
    Reachable (fun _ => False) w
      (w.move i (.inside [] (storeOrEcho e.intake index e.adm e.dep e.key) next)) := by
  induction fields generalizing w with
  | nil =>
    rw [checkNamespaces] at hi
    rw [w.move_of_eq i hi]
    exact .refl
  | cons f fields ih =>
    obtain ⟨hrest, body, hread, hbody⟩ := checkNamespaces_step hconfig hfault
    rw [hread] at hi
    refine .head ⟨i, .read hi⟩ ?_
    rw [view_nil, hbody]
    have := ih (w := w.move i (.inside [] (checkNamespaces env e.intake e.dep.id
      (storeOrEcho e.intake index e.adm e.dep e.key) fields) next)) hconfig hrest
      (World.move_stations_self _ _ _)
    rwa [World.move_move] at this

/-- An event whose key is free comes to its insert. -/
theorem reachable_insertion (e : ValidEvent env ws s) (hconfig : SameConfig s w.committed)
    (hnew : hasEvent w.committed ws e.key = false)
    (hi : w.stations i = .inside [] (storeOne env e.intake index e.adm) next) :
    Reachable (fun _ => False) w (w.move i (.inside [] (e.insertion index) next)) := by
  obtain ⟨f, hf, hnamespaces⟩ := e.storeOne_eq index
  rw [hf] at hi
  refine .head ⟨i, .read hi⟩ ?_
  rw [view_nil, hnamespaces _ hconfig]
  have hcheck := reachable_check (w := w.move i (.inside [] (checkNamespaces env e.intake e.dep.id
    (storeOrEcho e.intake index e.adm e.dep e.key) (idFields e.adm.payload)) next)) (i := i) e
    hconfig e.keyed.formats (World.move_stations_self _ _ _)
  rw [World.move_move] at hcheck
  refine hcheck.tail ⟨i, ?_⟩
  have hat := World.move_stations_self w i
    (.inside [] (storeOrEcho e.intake index e.adm e.dep e.key) next)
  rw [e.storeOrEcho_eq index] at hat ⊢
  have : Step (fun _ => False) i _ _ := .read hat
  rwa [World.move_move, World.move_committed, view_nil, if_neg (by simp [hnew])] at this

/-- Its insert fails where another row has come under its key since. -/
theorem raised_of_insertion (e : ValidEvent env ws s) {row : EventRow}
    (hi : w.stations i = .inside [] (e.insertion index) next)
    (hfree : w.Free i (.event ws e.key e.adm.occurredAt))
    (hrow : w.committed.lookup (.event ws e.key e.adm.occurredAt) = some row) :
    Step (fun _ => False) i w (w.move i (.resting (next (.error (.database .uniqueViolation))))) := by
  refine .writeFail hi hfree ?_
  rw [view_nil, hrow]
  rfl

/-- Two requests with the same new event: one may raise. -/
theorem race_raises {n : ℕ} (e : ValidEvent env ws s) (hseq : SequenceAhead (s, n))
    (hnew : hasEvent s ws e.key = false) {w : World Bool Row Failure Reply Outcome}
    (hcommitted : w.committed = s) (hsequence : w.sequence = n)
    (hstart : ∀ i, w.stations i = .resting (ingestEvents env e.intake [e.sub])) :
    ∃ w', Reachable (fun _ => False) w w' ∧
      w'.stations false = .resting (.done (.raised (.database .uniqueViolation))) := by
  obtain ⟨next, hbody, hnext⟩ : ∃ next, ingestEvents env e.intake [e.sub] =
      .txn (storeOne env e.intake 0 e.adm) next ∧
      next (.error (.database .uniqueViolation)) = .done (.raised (.database .uniqueViolation)) := by
    have hfits : ¬ maxBatch < 1 := by decide
    simp only [ingestEvents, List.length_singleton, if_neg hfits, ingestLoop, processOne,
      e.keyed.examined]
    exact ⟨_, rfl, rfl⟩
  have hfalse := hstart false
  rw [hbody] at hfalse
  have hopen : Reachable (fun _ => False) w
      (w.move false (.inside [] (e.insertion 0) next)) := by
    refine .head ⟨false, .start hfalse⟩ ?_
    have := reachable_insertion (w := w.move false (.inside [] (storeOne env e.intake 0 e.adm) next))
      (i := false) e (by rw [World.move_committed, hcommitted]; exact fun _ _ _ => rfl)
      (by rw [World.move_committed, hcommitted]; exact hnew) (World.move_stations_self _ _ _)
    rwa [World.move_move] at this
  have hother : (w.move false (.inside [] (e.insertion 0) next)).stations true =
      .resting (ingestEvents env e.intake [e.sub]) := by
    rw [World.move_stations_of_ne _ _ (by decide)]
    exact hstart true
  have hfree : ∀ k, (w.move false (.inside [] (e.insertion 0) next)).Free true k := by
    intro k j hj
    obtain rfl : j = false := by simpa using hj
    rw [World.move_stations_self]
    exact List.not_mem_nil
  have hrun : Reachable (fun _ => False) _ _ := run_reachable _ hother hfree
  rw [World.move_committed, World.move_sequence, hcommitted, hsequence] at hrun
  have hstored : ((ingestEvents env e.intake [e.sub]).run s n).2.1.lookup
      (.event ws e.key e.adm.occurredAt) = some e.row := by
    have hfits : [e.sub].length ≤ maxBatch := show 1 ≤ 500 by decide
    rw [run_ingestEvents hseq hfits]
    simp only [settleAll, e.settle_eq (fun _ _ _ => rfl), hnew, Bool.false_eq_true, if_false,
      persistAll, List.foldl_cons, List.foldl_nil, Persisted.apply]
    rw [e.workspace, AList.lookup_insert]
  have hwaiting : ((w.move false (.inside [] (e.insertion 0) next)).finished true
      ((ingestEvents env e.intake [e.sub]).run s n)).stations false =
      .inside [] (e.insertion 0) next := by
    rw [World.finished, World.move_stations_of_ne _ _ Bool.false_ne_true]
    exact World.move_stations_self w false _
  refine ⟨_, (hopen.trans hrun).tail ⟨false, raised_of_insertion e hwaiting ?_ hstored⟩, ?_⟩
  · intro j hj
    obtain rfl : j = true := by simpa using hj
    simp [World.finished, Station.locks]
  · rw [World.move_stations_self, hnext]

end Race

/-- Two requests with one meter event. -/
def meterParty (_ : Bool) : Party sampleEnv 1 sampleRows.1 where
  feed := .request
  intake := sampleIntake
  items := [(0, vendorMeter)]
  intake_eq item hitem := by
    rw [List.mem_singleton.1 hitem]
    rfl
  fits _ := by decide
  job h := by cases h

def meterRace : World Bool Row Failure Reply Outcome where
  committed := sampleRows.1
  sequence := sampleRows.2
  stations i := .resting (meterParty i).process

end TrueFigure.Server
