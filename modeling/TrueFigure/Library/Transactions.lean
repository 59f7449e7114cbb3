import Mathlib.Data.List.AList
import Mathlib.Logic.Relation
import Mathlib.Logic.Function.Basic

/-!
# Transactions under row locks

A store of typed rows, transactions written as trees of statements, and the
worlds in which any number of processes run them. Each statement sees the rows
committed when it starts together with the transaction's own writes (read
committed), a written or claimed row stays locked until its transaction ends,
and a transaction takes effect as a whole or not at all.
-/
namespace TrueFigure.Library

variable {κ : Type} {Row : κ → Type} {ε α ω ι : Type}

/-- Rows under their unique keys. -/
abbrev Store (Row : κ → Type) := AList Row

/-- One transaction: a tree of statements over the rows of a store. A write
receives the row now under its key and fails or says what to put there. A claim
takes one row of least rank among those nobody else has locked. -/
inductive Txn (Row : κ → Type) (ε α : Type) : Type
  | pure (a : α)
  | throw (e : ε)
  | read (next : Store Row → Txn Row ε α)
  | write (k : κ) (update : Option (Row k) → Except ε (Row k)) (next : Row k → Txn Row ε α)
  | claim (rank : (k : κ) → Row k → Option ℤ) (next : Option (Sigma Row) → Txn Row ε α)
  | fresh (next : ℕ → Txn Row ε α)

/-- A process runs one transaction after another, each continuing with the
answer or the error of the one before. -/
inductive Proc (Row : κ → Type) (ε α ω : Type) : Type
  | done (outcome : ω)
  | txn (body : Txn Row ε α) (next : Except ε α → Proc Row ε α ω)

/-- A row written (or locked) by a transaction: what it found and what it left. -/
structure Change (Row : κ → Type) where
  key : κ
  before : Option (Row key)
  after : Row key

/-- The keys a log holds locked. -/
def locked (log : List (Change Row)) : List κ := log.map Change.key

@[simp] theorem locked_nil : locked ([] : List (Change Row)) = [] := rfl

@[simp] theorem locked_cons (c : Change Row) (log : List (Change Row)) :
    locked (c :: log) = c.key :: locked log := rfl

@[simp] theorem locked_append (log more : List (Change Row)) :
    locked (log ++ more) = locked log ++ locked more := by
  simp [locked]

/-- Every transaction a process may come to run satisfies `good`. -/
def Proc.All (good : Txn Row ε α → Prop) : Proc Row ε α ω → Prop
  | .done _ => True
  | .txn body next => good body ∧ ∀ r, (next r).All good

theorem Proc.All.mono {good good' : Txn Row ε α → Prop} (h : ∀ body, good body → good' body)
    {p : Proc Row ε α ω} (hp : p.All good) : p.All good' := by
  induction p with
  | done o => trivial
  | txn body next ih => exact ⟨h body hp.1, fun r => ih r (hp.2 r)⟩

/-- A run of a transaction on its own: the log it writes and how it ends,
whatever its reads show it. -/
inductive Runs : Txn Row ε α → List (Change Row) → Except ε α → Prop
  | pure (a : α) : Runs (.pure a) [] (.ok a)
  | throw (e : ε) : Runs (.throw e) [] (.error e)
  | read {next : Store Row → Txn Row ε α} {log : List (Change Row)} {r : Except ε α}
      (s : Store Row) (h : Runs (next s) log r) : Runs (.read next) log r
  | writeFail {k : κ} {update : Option (Row k) → Except ε (Row k)} {next : Row k → Txn Row ε α}
      {e : ε} (before : Option (Row k)) (he : update before = .error e) :
      Runs (.write k update next) [] (.error e)
  | write {k : κ} {update : Option (Row k) → Except ε (Row k)} {next : Row k → Txn Row ε α}
      {log : List (Change Row)} {r : Except ε α} (before : Option (Row k)) (after : Row k)
      (hu : update before = .ok after) (h : Runs (next after) log r) :
      Runs (.write k update next) (⟨k, before, after⟩ :: log) r
  | claimNone {rank : (k : κ) → Row k → Option ℤ} {next : Option (Sigma Row) → Txn Row ε α}
      {log : List (Change Row)} {r : Except ε α} (h : Runs (next none) log r) :
      Runs (.claim rank next) log r
  | claim {rank : (k : κ) → Row k → Option ℤ} {next : Option (Sigma Row) → Txn Row ε α}
      {log : List (Change Row)} {r : Except ε α} {k : κ} {row : Row k} {x : ℤ}
      (hrank : rank k row = some x) (h : Runs (next (some ⟨k, row⟩)) log r) :
      Runs (.claim rank next) (⟨k, some row, row⟩ :: log) r
  | fresh {next : ℕ → Txn Row ε α} {log : List (Change Row)} {r : Except ε α}
      (n : ℕ) (h : Runs (next n) log r) : Runs (.fresh next) log r

namespace Runs

variable {log : List (Change Row)} {r : Except ε α} {a : α}

theorem of_pure (h : Runs (.pure a) log r) : log = [] ∧ r = .ok a := by
  cases h
  exact ⟨rfl, rfl⟩

theorem not_throw {e : ε} (h : Runs (.throw e) log (.ok a)) : False := by
  cases h

theorem of_read {next : Store Row → Txn Row ε α} (h : Runs (.read next) log r) :
    ∃ s, Runs (next s) log r := by
  cases h with
  | read s h => exact ⟨s, h⟩

theorem of_fresh {next : ℕ → Txn Row ε α} (h : Runs (.fresh next) log r) :
    ∃ n, Runs (next n) log r := by
  cases h with
  | fresh n h => exact ⟨n, h⟩

theorem of_write {k : κ} {update : Option (Row k) → Except ε (Row k)}
    {next : Row k → Txn Row ε α} (h : Runs (.write k update next) log (.ok a)) :
    ∃ before after more, update before = .ok after ∧ log = ⟨k, before, after⟩ :: more ∧
      Runs (next after) more (.ok a) := by
  cases h with
  | write before after hu h => exact ⟨before, after, _, hu, rfl, h⟩

theorem of_claim {rank : (k : κ) → Row k → Option ℤ} {next : Option (Sigma Row) → Txn Row ε α}
    (h : Runs (.claim rank next) log r) :
    Runs (next none) log r ∨ ∃ k row x more, rank k row = some x ∧
      log = ⟨k, some row, row⟩ :: more ∧ Runs (next (some ⟨k, row⟩)) more r := by
  cases h with
  | claimNone h => exact .inl h
  | claim hrank h => exact .inr ⟨_, _, _, _, hrank, rfl, h⟩

end Runs

/-- The rest of a session is what is left of a transaction it started with. -/
def Continues (body : Txn Row ε α) (log : List (Change Row)) (rest : Txn Row ε α) : Prop :=
  ∀ more r, Runs rest more r → Runs body (log ++ more) r

theorem Continues.refl (body : Txn Row ε α) : Continues body [] body := fun _ _ h => h

theorem Continues.snoc {body rest rest' : Txn Row ε α} {log : List (Change Row)} {c : Change Row}
    (h : Continues body log rest) (hstep : ∀ more r, Runs rest' more r → Runs rest (c :: more) r) :
    Continues body (log ++ [c]) rest' := by
  intro more r hr
  simpa using h (c :: more) r (hstep more r hr)

/-- Between transactions, or inside one with the log written so far. -/
inductive Station (Row : κ → Type) (ε α ω : Type) : Type
  | resting (p : Proc Row ε α ω)
  | inside (log : List (Change Row)) (rest : Txn Row ε α) (next : Except ε α → Proc Row ε α ω)

/-- The rows a process keeps locked. -/
def Station.locks : Station Row ε α ω → List κ
  | .resting _ => []
  | .inside log _ _ => locked log

/-- The committed rows, the identity sequence and what every process is doing. -/
structure World (ι : Type) (Row : κ → Type) (ε α ω : Type) where
  committed : Store Row
  sequence : ℕ
  stations : ι → Station Row ε α ω

namespace World

variable [DecidableEq ι] (w : World ι Row ε α ω) (i : ι)

/-- No process other than `i` keeps the row locked. -/
def Free (k : κ) : Prop := ∀ j, j ≠ i → k ∉ (w.stations j).locks

/-- Process `i` moves to another station. -/
def move (st : Station Row ε α ω) : World ι Row ε α ω :=
  { w with stations := Function.update w.stations i st }

@[simp] theorem move_committed (st : Station Row ε α ω) :
    (w.move i st).committed = w.committed := rfl

@[simp] theorem move_sequence (st : Station Row ε α ω) :
    (w.move i st).sequence = w.sequence := rfl

@[simp] theorem move_stations_self (st : Station Row ε α ω) :
    (w.move i st).stations i = st := by
  simp [move]

theorem move_stations_of_ne {j : ι} (h : j ≠ i) (st : Station Row ε α ω) :
    (w.move i st).stations j = w.stations j := by
  simp [move, h]

@[simp] theorem move_move (st st' : Station Row ε α ω) :
    (w.move i st).move i st' = w.move i st' := by
  simp [move]

theorem move_of_eq {st : Station Row ε α ω} (h : w.stations i = st) : w.move i st = w := by
  simp [move, ← h]

end World

variable [DecidableEq κ]

/-- The store as a session with this log sees it. -/
def view (log : List (Change Row)) (s : Store Row) : Store Row :=
  log.foldl (fun s c => s.insert c.key c.after) s

@[simp] theorem view_nil (s : Store Row) : view [] s = s := rfl

@[simp] theorem view_cons (c : Change Row) (log : List (Change Row)) (s : Store Row) :
    view (c :: log) s = view log (s.insert c.key c.after) := rfl

theorem view_append (log more : List (Change Row)) (s : Store Row) :
    view (log ++ more) s = view more (view log s) := by
  simp [view, List.foldl_append]

/-- Every change of the log found what the changes before it had left. -/
def Consistent : List (Change Row) → Store Row → Prop
  | [], _ => True
  | c :: log, s => s.lookup c.key = c.before ∧ Consistent log (s.insert c.key c.after)

theorem consistent_append (log more : List (Change Row)) (s : Store Row) :
    Consistent (log ++ more) s ↔ Consistent log s ∧ Consistent more (view log s) := by
  induction log generalizing s with
  | nil => simp [Consistent]
  | cons c log ih => simp [Consistent, ih, and_assoc]

theorem lookup_view_of_not_locked {log : List (Change Row)} {k : κ} (hk : k ∉ locked log)
    (s : Store Row) : (view log s).lookup k = s.lookup k := by
  induction log generalizing s with
  | nil => rfl
  | cons c log ih =>
    simp only [locked, List.map_cons, List.mem_cons, not_or] at hk
    rw [view_cons, ih hk.2, AList.lookup_insert_ne hk.1]

/-- A log shows the rows it has locked as it left them, whatever lies below. -/
theorem lookup_view_of_locked {log : List (Change Row)} {k : κ} (hk : k ∈ locked log)
    (s t : Store Row) : (view log s).lookup k = (view log t).lookup k := by
  induction log generalizing s t with
  | nil => exact absurd hk List.not_mem_nil
  | cons c log ih =>
    by_cases hlater : k ∈ locked log
    · exact ih hlater _ _
    · obtain rfl : k = c.key := by
        rcases List.mem_cons.1 hk with hk | hk
        · exact hk
        · exact absurd hk hlater
      rw [view_cons, view_cons, lookup_view_of_not_locked hlater,
        lookup_view_of_not_locked hlater, AList.lookup_insert, AList.lookup_insert]

theorem lookup_of_view_none {log : List (Change Row)} {s : Store Row} {k : κ}
    (h : (view log s).lookup k = none) : s.lookup k = none := by
  induction log generalizing s with
  | nil => exact h
  | cons c log ih =>
    have hinsert := ih h
    rcases eq_or_ne k c.key with rfl | hne
    · rw [AList.lookup_insert] at hinsert
      cases hinsert
    · rwa [AList.lookup_insert_ne hne] at hinsert

/-- A row a log changes once is found as it was and left as the change leaves it. -/
theorem Consistent.lookup_change {pre post : List (Change Row)} {c : Change Row} {s : Store Row}
    (h : Consistent (pre ++ c :: post) s) (hpre : c.key ∉ locked pre)
    (hpost : c.key ∉ locked post) :
    s.lookup c.key = c.before ∧ (view (pre ++ c :: post) s).lookup c.key = some c.after := by
  obtain ⟨-, hbefore, -⟩ := (consistent_append _ _ _).1 h
  rw [lookup_view_of_not_locked hpre] at hbefore
  refine ⟨hbefore, ?_⟩
  rw [view_append, view_cons, lookup_view_of_not_locked hpost, AList.lookup_insert]

theorem lookup_insert_congr {s t : Store Row} {k : κ} (h : s.lookup k = t.lookup k)
    (j : κ) (r : Row j) : (s.insert j r).lookup k = (t.insert j r).lookup k := by
  rcases eq_or_ne k j with rfl | hne
  · simp
  · rw [AList.lookup_insert_ne hne, AList.lookup_insert_ne hne, h]

/-- A log depends on the store only through the rows it locks. -/
theorem Consistent.congr {log : List (Change Row)} {s t : Store Row}
    (h : ∀ k ∈ locked log, s.lookup k = t.lookup k) (hs : Consistent log s) :
    Consistent log t := by
  induction log generalizing s t with
  | nil => trivial
  | cons c log ih =>
    obtain ⟨hc, hlog⟩ := hs
    refine ⟨(h c.key (by simp [locked])).symm.trans hc, ih ?_ hlog⟩
    intro k hk
    exact lookup_insert_congr (h k (by simp_all [locked])) _ _

/-- Process `i` takes one step. The errors in `faults` can strike a transaction
at any point; every other error comes from a statement. -/
inductive Step [DecidableEq ι] (faults : ε → Prop) (i : ι) :
    World ι Row ε α ω → World ι Row ε α ω → Prop
  | start {w} {body : Txn Row ε α} {next}
      (h : w.stations i = .resting (.txn body next)) :
      Step faults i w (w.move i (.inside [] body next))
  | read {w log f next} (h : w.stations i = .inside log (.read f) next) :
      Step faults i w (w.move i (.inside log (f (view log w.committed)) next))
  | fresh {w log f next} (h : w.stations i = .inside log (.fresh f) next) :
      Step faults i w
        ({ w with sequence := w.sequence + 1 }.move i (.inside log (f w.sequence) next))
  | write {w log k update f next} {row : Row k}
      (h : w.stations i = .inside log (.write k update f) next) (hfree : w.Free i k)
      (hu : update ((view log w.committed).lookup k) = .ok row) :
      Step faults i w (w.move i
        (.inside (log ++ [⟨k, (view log w.committed).lookup k, row⟩]) (f row) next))
  | writeFail {w log k update f next} {e : ε}
      (h : w.stations i = .inside log (.write k update f) next) (hfree : w.Free i k)
      (hu : update ((view log w.committed).lookup k) = .error e) :
      Step faults i w (w.move i (.resting (next (.error e))))
  | claim {w log f next} {rank : (k : κ) → Row k → Option ℤ} {k : κ} {row : Row k} {x : ℤ}
      (h : w.stations i = .inside log (.claim rank f) next) (hfree : w.Free i k)
      (hrow : (view log w.committed).lookup k = some row) (hrank : rank k row = some x)
      (hleast : ∀ k' row' x', w.Free i k' → (view log w.committed).lookup k' = some row' →
        rank k' row' = some x' → x ≤ x') :
      Step faults i w (w.move i (.inside (log ++ [⟨k, some row, row⟩]) (f (some ⟨k, row⟩)) next))
  | claimNone {w log f next} {rank : (k : κ) → Row k → Option ℤ}
      (h : w.stations i = .inside log (.claim rank f) next)
      (hnone : ∀ k row, w.Free i k → (view log w.committed).lookup k = some row →
        rank k row = none) :
      Step faults i w (w.move i (.inside log (f none) next))
  | commit {w log} {a : α} {next} (h : w.stations i = .inside log (.pure a) next) :
      Step faults i w
        ({ w with committed := view log w.committed }.move i (.resting (next (.ok a))))
  | throw {w log} {e : ε} {next} (h : w.stations i = .inside log (.throw e) next) :
      Step faults i w (w.move i (.resting (next (.error e))))
  | abort {w log rest next} {e : ε} (h : w.stations i = .inside log rest next)
      (hfault : faults e) : Step faults i w (w.move i (.resting (next (.error e))))

section StepInversion

variable [DecidableEq ι] {faults : ε → Prop} {i : ι} {w w' : World ι Row ε α ω}
  {log : List (Change Row)} {next : Except ε α → Proc Row ε α ω}

/-- A process between transactions can only start its next one. -/
theorem Step.of_resting {p : Proc Row ε α ω} (hi : w.stations i = .resting p)
    (hs : Step faults i w w') :
    ∃ body next, p = .txn body next ∧ w' = w.move i (.inside [] body next) := by
  cases hs with
  | start h =>
    rw [hi] at h
    exact ⟨_, _, Station.resting.inj h, rfl⟩
  | read h => cases hi.symm.trans h
  | fresh h => cases hi.symm.trans h
  | write h => cases hi.symm.trans h
  | writeFail h => cases hi.symm.trans h
  | claim h => cases hi.symm.trans h
  | claimNone h => cases hi.symm.trans h
  | commit h => cases hi.symm.trans h
  | throw h => cases hi.symm.trans h
  | abort h => cases hi.symm.trans h

/-- Without faults a read can only be carried out. -/
theorem Step.of_read {f : Store Row → Txn Row ε α}
    (hi : w.stations i = .inside log (.read f) next) (hs : Step (fun _ => False) i w w') :
    w' = w.move i (.inside log (f (view log w.committed)) next) := by
  cases hs with
  | read h =>
    cases hi.symm.trans h
    rfl
  | abort _ hfault => exact hfault.elim
  | start h => cases hi.symm.trans h
  | fresh h => cases hi.symm.trans h
  | write h => cases hi.symm.trans h
  | writeFail h => cases hi.symm.trans h
  | claim h => cases hi.symm.trans h
  | claimNone h => cases hi.symm.trans h
  | commit h => cases hi.symm.trans h
  | throw h => cases hi.symm.trans h

/-- Without faults a write is carried out on a free row or fails. -/
theorem Step.of_write {k : κ} {update : Option (Row k) → Except ε (Row k)}
    {f : Row k → Txn Row ε α} (hi : w.stations i = .inside log (.write k update f) next)
    (hs : Step (fun _ => False) i w w') :
    (∃ row, update ((view log w.committed).lookup k) = .ok row ∧ w' = w.move i
        (.inside (log ++ [⟨k, (view log w.committed).lookup k, row⟩]) (f row) next)) ∨
      ∃ e, update ((view log w.committed).lookup k) = .error e ∧
        w' = w.move i (.resting (next (.error e))) := by
  cases hs with
  | write h _ hu =>
    cases hi.symm.trans h
    exact .inl ⟨_, hu, rfl⟩
  | writeFail h _ hu =>
    cases hi.symm.trans h
    exact .inr ⟨_, hu, rfl⟩
  | abort _ hfault => exact hfault.elim
  | start h => cases hi.symm.trans h
  | read h => cases hi.symm.trans h
  | fresh h => cases hi.symm.trans h
  | claim h => cases hi.symm.trans h
  | claimNone h => cases hi.symm.trans h
  | commit h => cases hi.symm.trans h
  | throw h => cases hi.symm.trans h

/-- Without faults a transaction that is done can only commit. -/
theorem Step.of_pure {a : α} (hi : w.stations i = .inside log (.pure a) next)
    (hs : Step (fun _ => False) i w w') :
    w' = ({ w with committed := view log w.committed } : World ι Row ε α ω).move i
      (.resting (next (.ok a))) := by
  cases hs with
  | commit h =>
    cases hi.symm.trans h
    rfl
  | abort _ hfault => exact hfault.elim
  | start h => cases hi.symm.trans h
  | read h => cases hi.symm.trans h
  | fresh h => cases hi.symm.trans h
  | write h => cases hi.symm.trans h
  | writeFail h => cases hi.symm.trans h
  | claim h => cases hi.symm.trans h
  | claimNone h => cases hi.symm.trans h
  | throw h => cases hi.symm.trans h

end StepInversion

def AnyStep [DecidableEq ι] (faults : ε → Prop) (w w' : World ι Row ε α ω) : Prop :=
  ∃ i, Step faults i w w'

/-- The worlds some interleaving leads to. -/
def Reachable [DecidableEq ι] (faults : ε → Prop) :
    World ι Row ε α ω → World ι Row ε α ω → Prop :=
  Relation.ReflTransGen (AnyStep faults)

/-- Committing a run of `body` on its own keeps the invariant. -/
def Preserves (I : Store Row → Prop) (body : Txn Row ε α) : Prop :=
  ∀ log a s, Runs body log (.ok a) → Consistent log s → I s → I (view log s)

/-- What a process's station keeps to, whatever the others do. -/
def StationOk (good : Txn Row ε α → Prop) (s : Store Row) : Station Row ε α ω → Prop
  | .resting p => p.All good
  | .inside log rest next =>
    Consistent log s ∧ (∃ body, good body ∧ Continues body log rest) ∧ ∀ r, (next r).All good

/-- No row is locked twice, and every session is consistent with the committed
rows and carries on a good transaction. -/
structure Sound (good : Txn Row ε α → Prop) (w : World ι Row ε α ω) : Prop where
  disjoint : ∀ i j k, k ∈ (w.stations i).locks → k ∈ (w.stations j).locks → i = j
  station : ∀ i, StationOk good w.committed (w.stations i)

/-- Process `i` commits this log in the step from one world to the other. -/
def Commits [DecidableEq ι] (i : ι) (log : List (Change Row)) (a : α)
    (w w' : World ι Row ε α ω) : Prop :=
  ∃ next, w.stations i = .inside log (.pure a) next ∧
    w' = ({ w with committed := view log w.committed } : World ι Row ε α ω).move i
      (.resting (next (.ok a)))

theorem Commits.committed_eq [DecidableEq ι] {i : ι} {log : List (Change Row)} {a : α}
    {w w' : World ι Row ε α ω} (h : Commits i log a w w') :
    w'.committed = view log w.committed := by
  obtain ⟨next, -, rfl⟩ := h
  rfl

theorem Step.committed_eq [DecidableEq ι] {faults : ε → Prop} {i : ι} {w w' : World ι Row ε α ω}
    (hs : Step faults i w w') :
    w'.committed = w.committed ∨ ∃ log a, Commits i log a w w' := by
  cases hs with
  | commit hi => exact .inr ⟨_, _, _, hi, rfl⟩
  | start => exact .inl rfl
  | read => exact .inl rfl
  | fresh => exact .inl rfl
  | write => exact .inl rfl
  | writeFail => exact .inl rfl
  | claim => exact .inl rfl
  | claimNone => exact .inl rfl
  | throw => exact .inl rfl
  | abort => exact .inl rfl

theorem Step.stations_of_ne [DecidableEq ι] {faults : ε → Prop} {i j : ι}
    {w w' : World ι Row ε α ω} (hs : Step faults i w w') (hne : j ≠ i) :
    w'.stations j = w.stations j := by
  cases hs <;> exact World.move_stations_of_ne _ _ hne _

namespace Sound

variable {good : Txn Row ε α → Prop} {w : World ι Row ε α ω} {i : ι}

theorem withSequence (h : Sound good w) (n : ℕ) : Sound good { w with sequence := n } :=
  ⟨h.disjoint, h.station⟩

variable [DecidableEq ι]

/-- A process may move to any sound station whose new locks were free. -/
theorem move (h : Sound good w) {st : Station Row ε α ω}
    (hst : StationOk good w.committed st)
    (hlocks : ∀ k ∈ st.locks, k ∈ (w.stations i).locks ∨ w.Free i k) : Sound good (w.move i st) := by
  have hclash : ∀ j k, j ≠ i → k ∈ st.locks → k ∉ (w.stations j).locks := by
    intro j k hj hk hkj
    rcases hlocks k hk with hk | hk
    · exact hj (h.disjoint j i k hkj hk)
    · exact hk j hj hkj
  refine ⟨?_, ?_⟩
  · intro a b k ha hb
    rcases eq_or_ne a i with hai | hai <;> rcases eq_or_ne b i with hbi | hbi
    · rw [hai, hbi]
    · rw [hai, World.move_stations_self] at ha
      rw [World.move_stations_of_ne _ _ hbi] at hb
      exact absurd hb (hclash b k hbi ha)
    · rw [hbi, World.move_stations_self] at hb
      rw [World.move_stations_of_ne _ _ hai] at ha
      exact absurd ha (hclash a k hai hb)
    · rw [World.move_stations_of_ne _ _ hai] at ha
      rw [World.move_stations_of_ne _ _ hbi] at hb
      exact h.disjoint a b k ha hb
  · intro j
    rcases eq_or_ne j i with rfl | hj
    · rw [World.move_stations_self]
      exact hst
    · rw [World.move_stations_of_ne _ _ hj]
      exact h.station j

/-- A commit changes only rows its session has locked, so the other sessions
stay consistent. -/
theorem commit (h : Sound good w) {log : List (Change Row)} {a : α} {next}
    (hi : w.stations i = .inside log (.pure a) next) :
    Sound good ({ w with committed := view log w.committed }.move i (.resting (next (.ok a)))) := by
  have hsession := h.station i
  rw [hi] at hsession
  obtain ⟨-, -, hnext⟩ := hsession
  refine ⟨?_, ?_⟩
  · have hrest : Sound good (w.move i (.resting (next (.ok a)))) :=
      h.move (hnext _) (by simp [Station.locks])
    exact hrest.disjoint
  · intro j
    rcases eq_or_ne j i with rfl | hj
    · rw [World.move_stations_self]
      exact hnext _
    · rw [World.move_stations_of_ne _ _ hj]
      have hst := h.station j
      change StationOk _ (view log w.committed) (w.stations j)
      cases hcase : w.stations j with
      | resting p =>
        rw [hcase] at hst
        exact hst
      | inside log' rest next' =>
        rw [hcase] at hst
        refine ⟨hst.1.congr fun k hk => ?_, hst.2⟩
        refine (lookup_view_of_not_locked (fun hki => hj ?_) _).symm
        exact h.disjoint j i k (by rw [hcase]; exact hk) (by rw [hi]; exact hki)

theorem step (h : Sound good w) {faults : ε → Prop} {w' : World ι Row ε α ω}
    (hs : Step faults i w w') : Sound good w' := by
  have hst := h.station i
  cases hs with
  | start hi =>
    rw [hi] at hst
    exact h.move ⟨trivial, ⟨_, hst.1, .refl _⟩, hst.2⟩ (by simp [Station.locks, locked])
  | read hi =>
    rw [hi] at hst
    obtain ⟨hlog, ⟨body, hgood, hcont⟩, hnext⟩ := hst
    refine h.move ⟨hlog, ⟨body, hgood, fun more r hr => hcont more r (.read _ hr)⟩, hnext⟩ ?_
    exact fun k hk => .inl (by rw [hi]; exact hk)
  | fresh hi =>
    rw [hi] at hst
    obtain ⟨hlog, ⟨body, hgood, hcont⟩, hnext⟩ := hst
    refine (h.withSequence _).move
      ⟨hlog, ⟨body, hgood, fun more r hr => hcont more r (.fresh _ hr)⟩, hnext⟩ ?_
    exact fun k hk => .inl (by rw [hi]; exact hk)
  | write hi hfree hu =>
    rw [hi] at hst
    obtain ⟨hlog, ⟨body, hgood, hcont⟩, hnext⟩ := hst
    refine h.move ⟨?_, ⟨body, hgood, hcont.snoc fun more r hr => .write _ _ hu hr⟩, hnext⟩ ?_
    · exact (consistent_append _ _ _).2 ⟨hlog, rfl, trivial⟩
    · intro k hk
      rw [hi]
      simp only [Station.locks, locked, List.map_append, List.map_cons, List.map_nil,
        List.mem_append, List.mem_singleton] at hk ⊢
      rcases hk with hk | rfl
      · exact .inl hk
      · exact .inr hfree
  | writeFail hi hfree hu =>
    rw [hi] at hst
    exact h.move (hst.2.2 _) (by simp [Station.locks])
  | claim hi hfree hrow hrank hleast =>
    rw [hi] at hst
    obtain ⟨hlog, ⟨body, hgood, hcont⟩, hnext⟩ := hst
    refine h.move ⟨?_, ⟨body, hgood, hcont.snoc fun more r hr => .claim hrank hr⟩, hnext⟩ ?_
    · exact (consistent_append _ _ _).2 ⟨hlog, hrow, trivial⟩
    · intro k hk
      rw [hi]
      simp only [Station.locks, locked, List.map_append, List.map_cons, List.map_nil,
        List.mem_append, List.mem_singleton] at hk ⊢
      rcases hk with hk | rfl
      · exact .inl hk
      · exact .inr hfree
  | claimNone hi hnone =>
    rw [hi] at hst
    obtain ⟨hlog, ⟨body, hgood, hcont⟩, hnext⟩ := hst
    refine h.move ⟨hlog, ⟨body, hgood, fun more r hr => hcont more r (.claimNone hr)⟩, hnext⟩ ?_
    exact fun k hk => .inl (by rw [hi]; exact hk)
  | commit hi => exact h.commit hi
  | throw hi =>
    rw [hi] at hst
    exact h.move (hst.2.2 _) (by simp [Station.locks])
  | abort hi hfault =>
    rw [hi] at hst
    exact h.move (hst.2.2 _) (by simp [Station.locks])

theorem runs_of_commits (h : Sound good w) {w' : World ι Row ε α ω} {log : List (Change Row)}
    {a : α} (hc : Commits i log a w w') :
    ∃ body, good body ∧ Runs body log (.ok a) ∧ Consistent log w.committed := by
  obtain ⟨next, hi, -⟩ := hc
  have hsession := h.station i
  rw [hi] at hsession
  obtain ⟨hlog, ⟨body, hgood, hcont⟩, -⟩ := hsession
  exact ⟨body, hgood, by simpa using hcont [] _ (.pure a), hlog⟩

theorem reachable (h : Sound good w) {faults : ε → Prop} {w' : World ι Row ε α ω}
    (hr : Reachable faults w w') : Sound good w' := by
  induction hr with
  | refl => exact h
  | tail _ hs ih =>
    obtain ⟨i, hs⟩ := hs
    exact ih.step hs

end Sound

/-- The invariant of a world: the committed rows satisfy `I`, no row is locked
twice and every session is consistent with the committed rows. -/
structure WorldOk (I : Store Row → Prop) (w : World ι Row ε α ω) : Prop where
  committed : I w.committed
  disjoint : ∀ i j k, k ∈ (w.stations i).locks → k ∈ (w.stations j).locks → i = j
  station : ∀ i, StationOk (Preserves I) w.committed (w.stations i)

theorem StationOk.mono {good good' : Txn Row ε α → Prop} (h : ∀ body, good body → good' body)
    {s : Store Row} {st : Station Row ε α ω} (hst : StationOk good s st) : StationOk good' s st := by
  cases st with
  | resting p => exact Proc.All.mono h hst
  | inside log rest next =>
    obtain ⟨hlog, ⟨body, hgood, hcont⟩, hnext⟩ := hst
    exact ⟨hlog, ⟨body, h body hgood, hcont⟩, fun r => Proc.All.mono h (hnext r)⟩

/-- An invariant of every good transaction holds of a sound world whose rows
satisfy it. -/
theorem Sound.worldOk {good : Txn Row ε α → Prop} {I : Store Row → Prop} {w : World ι Row ε α ω}
    (h : Sound good w) (hgood : ∀ body, good body → Preserves I body) (hI : I w.committed) :
    WorldOk I w :=
  ⟨hI, h.disjoint, fun i => (h.station i).mono hgood⟩

namespace WorldOk

variable {I : Store Row → Prop} {w : World ι Row ε α ω} {i : ι}

theorem sound (h : WorldOk I w) : Sound (Preserves I) w := ⟨h.disjoint, h.station⟩

variable [DecidableEq ι]

theorem step (h : WorldOk I w) {faults : ε → Prop} {w' : World ι Row ε α ω}
    (hs : Step faults i w w') : WorldOk I w' := by
  refine (h.sound.step hs).worldOk (fun _ hgood => hgood) ?_
  rcases hs.committed_eq with heq | ⟨log, a, hc⟩
  · rw [heq]
    exact h.committed
  · obtain ⟨body, hgood, hruns, hlog⟩ := h.sound.runs_of_commits hc
    rw [hc.committed_eq]
    exact hgood log a _ hruns hlog h.committed

theorem reachable (h : WorldOk I w) {faults : ε → Prop} {w' : World ι Row ε α ω}
    (hr : Reachable faults w w') : WorldOk I w' := by
  induction hr with
  | refl => exact h
  | tail _ hs ih =>
    obtain ⟨i, hs⟩ := hs
    exact ih.step hs

end WorldOk

/-- No process is inside a transaction. -/
def World.Idle (w : World ι Row ε α ω) (good : Txn Row ε α → Prop) : Prop :=
  ∀ i, ∃ p : Proc Row ε α ω, w.stations i = .resting p ∧ p.All good

theorem World.Idle.sound {w : World ι Row ε α ω} {good : Txn Row ε α → Prop} (h : w.Idle good) :
    Sound good w := by
  have hlocks : ∀ i, (w.stations i).locks = [] := fun i => by
    obtain ⟨p, hp, _⟩ := h i
    simp [hp, Station.locks]
  refine ⟨fun i j k hk _ => ?_, fun i => ?_⟩
  · simp [hlocks i] at hk
  · obtain ⟨p, hp, hall⟩ := h i
    rw [hp]
    exact hall

/-- An invariant that every transaction preserves on its own holds of the
committed rows after any interleaving. -/
theorem committed_invariant [DecidableEq ι] {I : Store Row → Prop} {faults : ε → Prop}
    {w w' : World ι Row ε α ω} (h : I w.committed) (hidle : w.Idle (Preserves I))
    (hr : Reachable faults w w') : I w'.committed := by
  have hok : WorldOk I w := hidle.sound.worldOk (fun _ hgood => hgood) h
  exact (hok.reachable hr).committed

/-! ### Guarded commits -/

/-- Committing a run of `body` on its own keeps the invariant wherever the log
meets the guard. -/
def PreservesUnder (C : List (Change Row) → Store Row → Prop) (I : Store Row → Prop)
    (body : Txn Row ε α) : Prop :=
  ∀ log a s, Runs body log (.ok a) → Consistent log s → C log s → I s → I (view log s)

theorem Preserves.under {C : List (Change Row) → Store Row → Prop} {I : Store Row → Prop}
    {body : Txn Row ε α} (h : Preserves I body) : PreservesUnder C I body :=
  fun log a s hruns hlog _ hs => h log a s hruns hlog hs

/-- A step of any process that commits nothing but a log that meets the guard. -/
def GuardedStep [DecidableEq ι] (faults : ε → Prop) (C : List (Change Row) → Store Row → Prop)
    (w w' : World ι Row ε α ω) : Prop :=
  ∃ i, Step faults i w w' ∧ ∀ log a, Commits i log a w w' → C log w.committed

/-- An invariant that every transaction preserves on its own, where the guard
is met, holds after any interleaving whose commits all meet the guard. -/
theorem guarded_invariant [DecidableEq ι] {C : List (Change Row) → Store Row → Prop}
    {I : Store Row → Prop} {faults : ε → Prop} {w w' : World ι Row ε α ω} (h : I w.committed)
    (hidle : w.Idle (PreservesUnder C I))
    (hr : Relation.ReflTransGen (GuardedStep faults C) w w') : I w'.committed := by
  have hok : I w'.committed ∧ Sound (PreservesUnder C I) w' := by
    induction hr with
    | refl => exact ⟨h, hidle.sound⟩
    | tail _ hs ih =>
      obtain ⟨hcommitted, hsound⟩ := ih
      obtain ⟨i, hs, hguard⟩ := hs
      refine ⟨?_, hsound.step hs⟩
      rcases hs.committed_eq with heq | ⟨log, a, hc⟩
      · rw [heq]
        exact hcommitted
      · obtain ⟨body, hgood, hruns, hlog⟩ := hsound.runs_of_commits hc
        rw [hc.committed_eq]
        exact hgood log a _ hruns hlog (hguard log a hc) hcommitted
  exact hok.1

end TrueFigure.Library
