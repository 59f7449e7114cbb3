import Mathlib.Data.DFinsupp.WellFounded
import Mathlib.SetTheory.Ordinal.Rank
import TrueFigure.Library.Transactions

/-!
# Every run ends

A process is a finite-depth tree: each statement leaves a smaller rest. So
finitely many processes take finitely many steps, whatever the interleaving.
-/
namespace TrueFigure.Library

variable {κ : Type} {Row : κ → Type} {ε α ω ι : Type}

/-- The stations a process may come to next. -/
inductive Station.Follows : Station Row ε α ω → Station Row ε α ω → Prop
  | start (body : Txn Row ε α) (next : Except ε α → Proc Row ε α ω) :
      Follows (.inside [] body next) (.resting (.txn body next))
  | read (log log' : List (Change Row)) (f : Store Row → Txn Row ε α) (s : Store Row)
      (next : Except ε α → Proc Row ε α ω) :
      Follows (.inside log' (f s) next) (.inside log (.read f) next)
  | fresh (log log' : List (Change Row)) (f : ℕ → Txn Row ε α) (n : ℕ)
      (next : Except ε α → Proc Row ε α ω) :
      Follows (.inside log' (f n) next) (.inside log (.fresh f) next)
  | write (log log' : List (Change Row)) (k : κ) (update : Option (Row k) → Except ε (Row k))
      (f : Row k → Txn Row ε α) (row : Row k) (next : Except ε α → Proc Row ε α ω) :
      Follows (.inside log' (f row) next) (.inside log (.write k update f) next)
  | claim (log log' : List (Change Row)) (rank : (k : κ) → Row k → Option ℤ)
      (f : Option (Sigma Row) → Txn Row ε α) (row : Option (Sigma Row))
      (next : Except ε α → Proc Row ε α ω) :
      Follows (.inside log' (f row) next) (.inside log (.claim rank f) next)
  | finish (log : List (Change Row)) (rest : Txn Row ε α) (r : Except ε α)
      (next : Except ε α → Proc Row ε α ω) :
      Follows (.resting (next r)) (.inside log rest next)

/-- A transaction ends if what comes after it does. -/
theorem acc_inside (rest : Txn Row ε α) (log : List (Change Row))
    {next : Except ε α → Proc Row ε α ω}
    (hnext : ∀ r, Acc Station.Follows (.resting (next r) : Station Row ε α ω)) :
    Acc Station.Follows (.inside log rest next : Station Row ε α ω) := by
  induction rest generalizing log with
  | pure a =>
    constructor
    rintro st (_ | _ | _ | _ | _ | _)
    exact hnext _
  | throw e =>
    constructor
    rintro st (_ | _ | _ | _ | _ | _)
    exact hnext _
  | read f ih =>
    constructor
    rintro st (_ | _ | _ | _ | _ | _)
    · exact ih _ _
    · exact hnext _
  | write k update f ih =>
    constructor
    rintro st (_ | _ | _ | _ | _ | _)
    · exact ih _ _
    · exact hnext _
  | claim rank f ih =>
    constructor
    rintro st (_ | _ | _ | _ | _ | _)
    · exact ih _ _
    · exact hnext _
  | fresh f ih =>
    constructor
    rintro st (_ | _ | _ | _ | _ | _)
    · exact ih _ _
    · exact hnext _

theorem acc_resting (p : Proc Row ε α ω) :
    Acc Station.Follows (.resting p : Station Row ε α ω) := by
  induction p with
  | done o =>
    constructor
    rintro st ⟨⟩
  | txn body next ih =>
    constructor
    rintro st ⟨⟩
    exact acc_inside body [] ih

theorem wellFounded_follows :
    WellFounded (Station.Follows : Station Row ε α ω → Station Row ε α ω → Prop) := by
  constructor
  intro st
  cases st with
  | resting p => exact acc_resting p
  | inside log rest next => exact acc_inside rest log fun r => acc_resting _

variable [DecidableEq κ] [DecidableEq ι]

/-- A step takes one process on and leaves the others where they are. -/
theorem Step.follows {faults : ε → Prop} {i : ι} {w w' : World ι Row ε α ω}
    (hs : Step faults i w w') : (w'.stations i).Follows (w.stations i) ∧
      ∀ j, j ≠ i → w'.stations j = w.stations j := by
  have hothers : ∀ (w : World ι Row ε α ω) st j, j ≠ i → (w.move i st).stations j = w.stations j :=
    fun w st j hj => World.move_stations_of_ne w i hj st
  cases hs with
  | start h =>
    rw [h, World.move_stations_self]
    exact ⟨.start _ _, hothers _ _⟩
  | read h =>
    rw [h, World.move_stations_self]
    exact ⟨.read _ _ _ _ _, hothers _ _⟩
  | fresh h =>
    rw [h, World.move_stations_self]
    exact ⟨.fresh _ _ _ _ _, hothers _ _⟩
  | write h _ _ =>
    rw [h, World.move_stations_self]
    exact ⟨.write _ _ _ _ _ _ _, hothers _ _⟩
  | claim h _ _ _ _ =>
    rw [h, World.move_stations_self]
    exact ⟨.claim _ _ _ _ _ _, hothers _ _⟩
  | claimNone h _ =>
    rw [h, World.move_stations_self]
    exact ⟨.claim _ _ _ _ _ _, hothers _ _⟩
  | writeFail h _ _ =>
    rw [h, World.move_stations_self]
    exact ⟨.finish _ _ _ _, hothers _ _⟩
  | commit h =>
    rw [h, World.move_stations_self]
    exact ⟨.finish _ _ _ _, hothers _ _⟩
  | throw h =>
    rw [h, World.move_stations_self]
    exact ⟨.finish _ _ _ _, hothers _ _⟩
  | abort h _ =>
    rw [h, World.move_stations_self]
    exact ⟨.finish _ _ _ _, hothers _ _⟩

/-- Finitely many processes run for finitely many steps. -/
theorem wellFounded_step [Finite ι] (faults : ε → Prop) :
    WellFounded fun w' w : World ι Row ε α ω => AnyStep faults w w' := by
  have : IsWellFounded (Station Row ε α ω) Station.Follows := ⟨wellFounded_follows⟩
  let rank : World ι Row ε α ω → ι → Ordinal :=
    fun w i => IsWellFounded.rank Station.Follows (w.stations i)
  refine Subrelation.wf ?_ (InvImage.wf rank wellFounded_lt)
  rintro w' w ⟨i, hs⟩
  obtain ⟨hfollows, hothers⟩ := hs.follows
  have hlt : rank w' i < rank w i := IsWellFounded.rank_lt_of_rel hfollows
  refine Pi.lt_def.2 ⟨fun j => ?_, i, hlt⟩
  by_cases hj : j = i
  · rw [hj]
    exact le_of_lt hlt
  · exact le_of_eq (congrArg (IsWellFounded.rank Station.Follows) (hothers j hj))

end TrueFigure.Library
