import TrueFigure.Library.Sequential

/-!
# Proof outlines of transactions

An assertion for every point of a transaction. Its own statements lead from one to the
next, and the commits of others do not disturb it. What an outline says of a
transaction that is done holds of every commit, whether others run beside it or not.
-/
namespace TrueFigure.Library

variable {κ : Type} [DecidableEq κ] {Row : κ → Type} {ε α ω ι : Type}

theorem insert_view (log : List (Change Row)) (s : Store Row) (k : κ) (before : Option (Row k))
    (after : Row k) : (view log s).insert k after = view (log ++ [⟨k, before, after⟩]) s := by
  rw [view_append, view_cons, view_nil]

theorem Consistent.snoc {log : List (Change Row)} {s : Store Row} {c : Change Row}
    (h : Consistent log s) (hc : (view log s).lookup c.key = c.before) :
    Consistent (log ++ [c]) s :=
  (consistent_append _ _ _).2 ⟨h, hc, trivial⟩

/-- `A` holds at every point of a transaction, over committed rows and a sequence with
`I`: its statements establish it, and the commit of another transaction, which has
locked other rows, leaves it. -/
structure Outline (I : Store Row → ℕ → Prop)
    (A : Store Row → ℕ → List (Change Row) → Txn Row ε α → Prop) : Prop where
  read {s n log f} (hI : I s n) (hlog : Consistent log s) (h : A s n log (.read f)) :
    A s n log (f (view log s))
  write {s n log k update f row} (hI : I s n) (hlog : Consistent log s)
    (h : A s n log (.write k update f)) (hu : update ((view log s).lookup k) = .ok row) :
    A s n (log ++ [⟨k, (view log s).lookup k, row⟩]) (f row)
  claim {s n log f} {rank : (k : κ) → Row k → Option ℤ} {k : κ} {row : Row k} {x : ℤ}
    (hI : I s n) (hlog : Consistent log s) (h : A s n log (.claim rank f))
    (hrow : (view log s).lookup k = some row) (hrank : rank k row = some x) :
    A s n (log ++ [⟨k, some row, row⟩]) (f (some ⟨k, row⟩))
  claimNone {s n log f} {rank : (k : κ) → Row k → Option ℤ} (h : A s n log (.claim rank f)) :
    A s n log (f none)
  fresh {s n log f} (hI : I s n) (hlog : Consistent log s) (h : A s n log (.fresh f)) :
    A s (n + 1) log (f n)
  next {s n} (hI : I s n) : I s (n + 1)
  kept {s n log rest} (h : A s n log rest) : A s (n + 1) log rest
  commit {s n log a} (hI : I s n) (hlog : Consistent log s) (h : A s n log (.pure a)) :
    I (view log s) n
  stable {s n log rest log' a} (hI : I s n) (hlog : Consistent log s) (hlog' : Consistent log' s)
    (h : A s n log rest) (h' : A s n log' (.pure a)) (hlocks : ∀ k ∈ locked log, k ∉ locked log') :
    A (view log' s) n log rest

/-- The outline covers the transaction from its start. -/
def Covered (I : Store Row → ℕ → Prop)
    (A : Store Row → ℕ → List (Change Row) → Txn Row ε α → Prop) (body : Txn Row ε α) : Prop :=
  ∀ s n, I s n → A s n [] body

/-- Every open transaction is where its outline says. -/
structure Outlined (I : Store Row → ℕ → Prop)
    (A : Store Row → ℕ → List (Change Row) → Txn Row ε α → Prop) (w : World ι Row ε α ω) :
    Prop where
  sound : Sound (Covered I A) w
  inv : I w.committed w.sequence
  inside : ∀ i log rest next, w.stations i = .inside log rest next →
    A w.committed w.sequence log rest

variable {I : Store Row → ℕ → Prop} {A : Store Row → ℕ → List (Change Row) → Txn Row ε α → Prop}
  {w w' : World ι Row ε α ω} {i : ι}

theorem World.Idle.outlined (h : w.Idle (Covered I A)) (hI : I w.committed w.sequence) :
    Outlined I A w := by
  refine ⟨h.sound, hI, fun i log rest next hi => ?_⟩
  obtain ⟨p, hp, -⟩ := h i
  rw [hp] at hi
  cases hi

namespace Outlined

theorem advance (h : Outline I A) (hw : Outlined I A w) :
    Outlined I A { w with sequence := w.sequence + 1 } where
  sound := hw.sound.withSequence _
  inv := h.next hw.inv
  inside i log rest next hi := h.kept (hw.inside i log rest next hi)

variable [DecidableEq ι]

/-- Process `i` moves to another station, at which the outline holds. -/
theorem move {st : Station Row ε α ω} (hw : Outlined I A w)
    (hsound : Sound (Covered I A) (w.move i st))
    (hst : ∀ log rest next, st = .inside log rest next → A w.committed w.sequence log rest) :
    Outlined I A (w.move i st) where
  sound := hsound
  inv := hw.inv
  inside j log rest next hj := by
    rcases eq_or_ne j i with rfl | hne
    · rw [World.move_stations_self] at hj
      exact hst log rest next hj
    · rw [World.move_stations_of_ne _ _ hne] at hj
      exact hw.inside j log rest next hj

end Outlined

namespace Outline

variable [DecidableEq ι]

theorem committed (h : Outline I A) (hw : Outlined I A w) {log : List (Change Row)} {a : α} {next}
    (hi : w.stations i = .inside log (.pure a) next) :
    Outlined I A ({ w with committed := view log w.committed }.move i
      (.resting (next (.ok a)))) := by
  have hconsistent : ∀ j log rest next, w.stations j = .inside log rest next →
      Consistent log w.committed := by
    intro j log rest next hj
    have hst := hw.sound.station j
    rw [hj] at hst
    exact hst.1
  have hpure := hw.inside i _ _ _ hi
  have hlog := hconsistent i _ _ _ hi
  refine ⟨hw.sound.commit hi, h.commit hw.inv hlog hpure, fun j log' rest next' hj => ?_⟩
  rcases eq_or_ne j i with rfl | hne
  · rw [World.move_stations_self] at hj
    cases hj
  · rw [World.move_stations_of_ne _ _ hne] at hj
    refine h.stable hw.inv (hconsistent j _ _ _ hj) hlog (hw.inside j _ _ _ hj) hpure ?_
    intro k hk hk'
    refine hne (hw.sound.disjoint j i k ?_ ?_)
    · rw [show w.stations j = _ from hj]
      exact hk
    · rw [hi]
      exact hk'

theorem step (h : Outline I A) (hw : Outlined I A w) {faults : ε → Prop}
    (hs : Step faults i w w') : Outlined I A w' := by
  have hsound := hw.sound.step hs
  have hst := hw.sound.station i
  have hrest : ∀ p : Proc Row ε α ω, Sound (Covered I A) (w.move i (.resting p)) →
      Outlined I A (w.move i (.resting p)) := fun p hp => hw.move hp (by simp)
  cases hs with
  | start hi =>
    rw [hi] at hst
    refine hw.move hsound fun log rest next heq => ?_
    cases heq
    exact hst.1 _ _ hw.inv
  | read hi =>
    rw [hi] at hst
    refine hw.move hsound fun log rest next heq => ?_
    cases heq
    exact h.read hw.inv hst.1 (hw.inside i _ _ _ hi)
  | fresh hi =>
    rw [hi] at hst
    refine (hw.advance h).move hsound fun log rest next heq => ?_
    cases heq
    exact h.fresh hw.inv hst.1 (hw.inside i _ _ _ hi)
  | write hi hfree hu =>
    rw [hi] at hst
    refine hw.move hsound fun log rest next heq => ?_
    cases heq
    exact h.write hw.inv hst.1 (hw.inside i _ _ _ hi) hu
  | claim hi hfree hrow hrank hleast =>
    rw [hi] at hst
    refine hw.move hsound fun log rest next heq => ?_
    cases heq
    exact h.claim hw.inv hst.1 (hw.inside i _ _ _ hi) hrow hrank
  | claimNone hi hnone =>
    refine hw.move hsound fun log rest next heq => ?_
    cases heq
    exact h.claimNone (hw.inside i _ _ _ hi)
  | commit hi => exact h.committed hw hi
  | writeFail hi hfree hu => exact hrest _ hsound
  | throw hi => exact hrest _ hsound
  | abort hi hfault => exact hrest _ hsound

theorem reachable (h : Outline I A) (hw : Outlined I A w) {faults : ε → Prop}
    (hr : Reachable faults w w') : Outlined I A w' := by
  induction hr with
  | refl => exact hw
  | tail _ hs ih =>
    obtain ⟨i, hs⟩ := hs
    exact h.step ih hs

omit [DecidableEq ι] in
/-- A transaction that succeeds alone is done where its outline says. -/
theorem eval (h : Outline I A) {s t : Store Row} {n n' : ℕ} {log : List (Change Row)} {a : α}
    {body : Txn Row ε α} (hI : I s n) (hlog : Consistent log s) (hA : A s n log body)
    (heval : body.eval (view log s) n = (.ok (a, t), n')) :
    ∃ log', A s n' log' (.pure a) ∧ Consistent log' s ∧ I s n' ∧ t = view log' s := by
  induction body generalizing n log with
  | pure b =>
    cases heval
    exact ⟨log, hA, hlog, hI, rfl⟩
  | throw e => cases heval
  | read f ih => exact ih _ hI hlog (h.read hI hlog hA) heval
  | write k update f ih =>
    cases hu : update ((view log s).lookup k) with
    | error e =>
      simp only [Txn.eval, hu] at heval
      cases heval
    | ok row =>
      simp only [Txn.eval, hu] at heval
      rw [insert_view] at heval
      exact ih row hI (hlog.snoc rfl) (h.write hI hlog hA hu) heval
  | claim rank f ih =>
    cases hl : leastRanked rank (view log s) with
    | none =>
      simp only [Txn.eval, hl] at heval
      exact ih none hI hlog (h.claimNone hA) heval
    | some e =>
      simp only [Txn.eval, hl] at heval
      obtain ⟨hrow, x, hrank, -⟩ := mem_of_leastRanked hl
      rw [insert_view] at heval
      exact ih (some e) hI (hlog.snoc hrow) (h.claim hI hlog hA hrow hrank) heval
  | fresh f ih => exact ih n (h.next hI) hlog (h.fresh hI hlog hA) heval

end Outline

end TrueFigure.Library
