import TrueFigure.Library.Runs
import TrueFigure.Library.Transactions

/-!
# What a transaction has read

A read shows the rows committed when it is carried out, so two reads of one
transaction may show different stores. A run of a transaction is therefore taken
with a condition that each of its reads meets, and in a run of a whole world the
reads of a session are states of that run in which the session was open.
-/
namespace TrueFigure.Library

variable {κ : Type} {Row : κ → Type} {ε α ω ι : Type} [DecidableEq κ]

/-- A run of a transaction that has written `log` already. Every read is of a
committed store that `seen` admits there. -/
inductive Observed (seen : List (Change Row) → (Store Row → Txn Row ε α) → Store Row → Prop) :
    List (Change Row) → Txn Row ε α → List (Change Row) → Except ε α → Prop
  | pure {log : List (Change Row)} (a : α) : Observed seen log (.pure a) [] (.ok a)
  | throw {log : List (Change Row)} (e : ε) : Observed seen log (.throw e) [] (.error e)
  | read {log more : List (Change Row)} {next : Store Row → Txn Row ε α} {r : Except ε α}
      {s : Store Row} (hseen : seen log next s) (h : Observed seen log (next (view log s)) more r) :
      Observed seen log (.read next) more r
  | writeFail {log : List (Change Row)} {k : κ} {update : Option (Row k) → Except ε (Row k)}
      {next : Row k → Txn Row ε α} {e : ε} (before : Option (Row k))
      (he : update before = .error e) : Observed seen log (.write k update next) [] (.error e)
  | write {log more : List (Change Row)} {k : κ} {update : Option (Row k) → Except ε (Row k)}
      {next : Row k → Txn Row ε α} {r : Except ε α} {before : Option (Row k)} {after : Row k}
      (hu : update before = .ok after)
      (h : Observed seen (log ++ [⟨k, before, after⟩]) (next after) more r) :
      Observed seen log (.write k update next) (⟨k, before, after⟩ :: more) r
  | claimNone {log more : List (Change Row)} {rank : (k : κ) → Row k → Option ℤ}
      {next : Option (Sigma Row) → Txn Row ε α} {r : Except ε α}
      (h : Observed seen log (next none) more r) : Observed seen log (.claim rank next) more r
  | claim {log more : List (Change Row)} {rank : (k : κ) → Row k → Option ℤ}
      {next : Option (Sigma Row) → Txn Row ε α} {r : Except ε α} {k : κ} {row : Row k} {x : ℤ}
      (hrank : rank k row = some x)
      (h : Observed seen (log ++ [⟨k, some row, row⟩]) (next (some ⟨k, row⟩)) more r) :
      Observed seen log (.claim rank next) (⟨k, some row, row⟩ :: more) r
  | fresh {log more : List (Change Row)} {next : ℕ → Txn Row ε α} {r : Except ε α} (n : ℕ)
      (h : Observed seen log (next n) more r) : Observed seen log (.fresh next) more r

namespace Observed

variable {seen : List (Change Row) → (Store Row → Txn Row ε α) → Store Row → Prop}
  {log more : List (Change Row)} {r : Except ε α} {body : Txn Row ε α}

theorem runs (h : Observed seen log body more r) : Runs body more r := by
  induction h with
  | pure a => exact .pure a
  | throw e => exact .throw e
  | read _ _ ih => exact .read _ ih
  | writeFail before he => exact .writeFail before he
  | write hu _ ih => exact .write _ _ hu ih
  | claimNone _ ih => exact .claimNone ih
  | claim hrank _ ih => exact .claim hrank ih
  | fresh n _ ih => exact .fresh n ih

theorem of_read {next : Store Row → Txn Row ε α} (h : Observed seen log (.read next) more r) :
    ∃ s, seen log next s ∧ Observed seen log (next (view log s)) more r := by
  cases h with
  | read hseen h => exact ⟨_, hseen, h⟩

theorem of_claim {rank : (k : κ) → Row k → Option ℤ} {next : Option (Sigma Row) → Txn Row ε α}
    (h : Observed seen log (.claim rank next) more r) :
    Observed seen log (next none) more r ∨ ∃ k row x more', rank k row = some x ∧
      more = ⟨k, some row, row⟩ :: more' ∧
        Observed seen (log ++ [⟨k, some row, row⟩]) (next (some ⟨k, row⟩)) more' r := by
  cases h with
  | claimNone h => exact .inl h
  | claim hrank h => exact .inr ⟨_, _, _, _, hrank, rfl, h⟩

end Observed

/-! ### The session of a process in a run -/

/-- The process is inside a transaction. -/
def Station.Open : Station Row ε α ω → Prop
  | .resting _ => False
  | .inside _ _ _ => True

/-- In one of these states process `i` carries out this read. -/
def ReadIn (during : List (World ι Row ε α ω × ι)) (i : ι) (log : List (Change Row))
    (f : Store Row → Txn Row ε α) (s : Store Row) : Prop :=
  ∃ x ∈ during, x.2 = i ∧ x.1.committed = s ∧
    ∃ next, x.1.stations i = .inside log (.read f) next

/-- The station of process `i` after these steps: an open session has been open
since it started a good transaction, and its reads are states since then. -/
def SessionOk (good : Txn Row ε α → Prop) (trace : List (World ι Row ε α ω × ι)) (i : ι) :
    Station Row ε α ω → Prop
  | .resting p => p.All good
  | .inside log rest next => (∀ r, (next r).All good) ∧
    ∃ pre during, trace = pre ++ during ∧ (∀ x ∈ during, (x.1.stations i).Open) ∧
      ∃ body, good body ∧
        ∀ seen : List (Change Row) → (Store Row → Txn Row ε α) → Store Row → Prop,
          (∀ l f s, ReadIn during i l f s → seen l f s) →
            ∀ more r, Observed seen log rest more r → Observed seen [] body (log ++ more) r

variable [DecidableEq ι] {good : Txn Row ε α → Prop} {faults : ε → Prop} {i j : ι}
  {w w' : World ι Row ε α ω} {trace : List (World ι Row ε α ω × ι)}

omit [DecidableEq κ] [DecidableEq ι] in
theorem ReadIn.snoc {during : List (World ι Row ε α ω × ι)} {log : List (Change Row)}
    {f : Store Row → Txn Row ε α} {s : Store Row} (h : ReadIn during i log f s)
    (x : World ι Row ε α ω × ι) : ReadIn (during ++ [x]) i log f s := by
  obtain ⟨y, hy, hrest⟩ := h
  exact ⟨y, List.mem_append_left _ hy, hrest⟩

omit [DecidableEq ι] in
/-- The session goes on with `rest'` once the step from `w` has shown that a run of
it is a run of what was left before. -/
theorem SessionOk.advance {log log' : List (Change Row)} {rest rest' : Txn Row ε α}
    {next : Except ε α → Proc Row ε α ω} (hi : w.stations i = .inside log rest next)
    (h : SessionOk good trace i (.inside log rest next))
    (hstep : ∀ seen : List (Change Row) → (Store Row → Txn Row ε α) → Store Row → Prop,
      (∀ l f s, ReadIn [(w, j)] i l f s → seen l f s) → ∀ more r,
        Observed seen log' rest' more r →
          ∃ c, log' ++ more = log ++ c ∧ Observed seen log rest c r) :
    SessionOk good (trace ++ [(w, j)]) i (.inside log' rest' next) := by
  obtain ⟨hnext, pre, during, rfl, hopen, body, hgood, hcont⟩ := h
  refine ⟨hnext, pre, during ++ [(w, j)], by rw [List.append_assoc], ?_, body, hgood, ?_⟩
  · intro x hx
    rcases List.mem_append.1 hx with hx | hx
    · exact hopen x hx
    · rw [List.mem_singleton.1 hx]
      dsimp only
      rw [hi]
      trivial
  · intro seen hseen more r hmore
    have hlast : ∀ l f s, ReadIn [(w, j)] i l f s → seen l f s := by
      rintro l f s ⟨x, hx, hread⟩
      exact hseen l f s ⟨x, List.mem_append_right _ hx, hread⟩
    obtain ⟨c, heq, hc⟩ := hstep seen hlast more r hmore
    rw [heq]
    exact hcont seen (fun l f s hread => hseen l f s (hread.snoc _)) c r hc

omit [DecidableEq ι] in
theorem SessionOk.wait (h : SessionOk good trace i (w.stations i)) :
    SessionOk good (trace ++ [(w, j)]) i (w.stations i) := by
  cases hi : w.stations i with
  | resting p =>
    rw [hi] at h
    exact h
  | inside log rest next =>
    rw [hi] at h
    exact h.advance hi fun seen _ more r hmore => ⟨more, rfl, hmore⟩

omit [DecidableEq ι] in
theorem SessionOk.ended {log : List (Change Row)} {rest : Txn Row ε α}
    {next : Except ε α → Proc Row ε α ω} (hi : w.stations i = .inside log rest next)
    (h : SessionOk good trace i (w.stations i)) (r : Except ε α) :
    SessionOk good (trace ++ [(w, i)]) i (.resting (next r)) := by
  rw [hi] at h
  exact h.1 r

theorem SessionOk.step (h : SessionOk good trace i (w.stations i)) (hs : Step faults i w w') :
    SessionOk good (trace ++ [(w, i)]) i (w'.stations i) := by
  cases hs with
  | start hi =>
    rw [World.move_stations_self]
    rw [hi] at h
    exact ⟨h.2, trace ++ [(w, i)], [], (List.append_nil _).symm, by simp, _, h.1,
      fun _ _ _ _ hmore => hmore⟩
  | read hi =>
    rw [World.move_stations_self]
    rw [hi] at h
    exact h.advance hi fun seen hseen more r hmore =>
      ⟨more, rfl, .read (hseen _ _ _ ⟨(w, i), by simp, rfl, rfl, _, hi⟩) hmore⟩
  | fresh hi =>
    rw [World.move_stations_self]
    rw [hi] at h
    exact h.advance hi fun seen _ more r hmore => ⟨more, rfl, .fresh _ hmore⟩
  | write hi _ hu =>
    rw [World.move_stations_self]
    rw [hi] at h
    exact h.advance hi fun seen _ more r hmore =>
      ⟨_ :: more, by rw [List.append_assoc, List.singleton_append], .write hu hmore⟩
  | claim hi _ _ hrank =>
    rw [World.move_stations_self]
    rw [hi] at h
    exact h.advance hi fun seen _ more r hmore =>
      ⟨_ :: more, by rw [List.append_assoc, List.singleton_append], .claim hrank hmore⟩
  | claimNone hi =>
    rw [World.move_stations_self]
    rw [hi] at h
    exact h.advance hi fun seen _ more r hmore => ⟨more, rfl, .claimNone hmore⟩
  | writeFail hi =>
    rw [World.move_stations_self]
    exact h.ended hi _
  | commit hi =>
    rw [World.move_stations_self]
    exact h.ended hi _
  | throw hi =>
    rw [World.move_stations_self]
    exact h.ended hi _
  | abort hi =>
    rw [World.move_stations_self]
    exact h.ended hi _

theorem sessionOk_of_run {w₀ : World ι Row ε α ω}
    (hrun : Run (fun w i w' => Step faults i w w') w₀ trace w) (hidle : w₀.Idle good) (i : ι) :
    SessionOk good trace i (w.stations i) := by
  refine Run.snocInduction (motive := fun trace w => SessionOk good trace i (w.stations i))
    ?_ (fun {trace t j u} _ hs ih => ?_) hrun
  · obtain ⟨p, hp, hall⟩ := hidle i
    rw [hp]
    exact hall
  · rcases eq_or_ne i j with rfl | hne
    · exact ih.step hs
    · rw [hs.stations_of_ne hne]
      exact ih.wait

/-- What a process commits in a run is a run of a good transaction whose reads
are states of the run in which its session was open. -/
theorem observed_of_commits {w₀ : World ι Row ε α ω}
    (hrun : Run (fun w i w' => Step faults i w w') w₀ trace w) (hidle : w₀.Idle good)
    {log : List (Change Row)} {a : α} (hc : Commits i log a w w') :
    ∃ pre during body, trace = pre ++ during ∧ (∀ x ∈ during, (x.1.stations i).Open) ∧
      good body ∧ Observed (ReadIn during i) [] body log (.ok a) := by
  obtain ⟨next, hi, -⟩ := hc
  have hsession := sessionOk_of_run hrun hidle i
  rw [hi] at hsession
  obtain ⟨-, pre, during, htrace, hopen, body, hgood, hcont⟩ := hsession
  have hbody := hcont (ReadIn during i) (fun _ _ _ h => h) [] (.ok a) (.pure a)
  rw [List.append_nil] at hbody
  exact ⟨pre, during, body, htrace, hopen, hgood, hbody⟩

end TrueFigure.Library
