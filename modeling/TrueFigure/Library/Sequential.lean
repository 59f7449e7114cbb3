import TrueFigure.Library.Transactions

/-!
# A process alone

The executable meaning of a transaction and of a process when no other session
is open. A process that runs alone among resting ones realizes it, step by step,
so what is computed here is one of the interleavings.
-/
namespace TrueFigure.Library

variable {κ : Type} {Row : κ → Type} {ε α ω ι : Type}

def leastRankedIn (rank : (k : κ) → Row k → Option ℤ) : List (Sigma Row) → Option (Sigma Row)
  | [] => none
  | e :: es =>
    match rank e.1 e.2, leastRankedIn rank es with
    | none, best => best
    | some _, none => some e
    | some x, some best => if (rank best.1 best.2).getD x < x then some best else some e

/-- The first row of least rank, in store order. -/
def leastRanked (rank : (k : κ) → Row k → Option ℤ) (s : Store Row) : Option (Sigma Row) :=
  leastRankedIn rank s.entries

theorem leastRankedIn_none {rank : (k : κ) → Row k → Option ℤ} {es : List (Sigma Row)}
    (h : leastRankedIn rank es = none) : ∀ e ∈ es, rank e.1 e.2 = none := by
  induction es with
  | nil => simp
  | cons e es ih =>
    unfold leastRankedIn at h
    split at h
    · rename_i he
      simpa [he] using ih h
    · cases h
    · split_ifs at h

theorem leastRankedIn_some {rank : (k : κ) → Row k → Option ℤ} {es : List (Sigma Row)}
    {e : Sigma Row} (h : leastRankedIn rank es = some e) :
    e ∈ es ∧ ∃ x, rank e.1 e.2 = some x ∧ ∀ d ∈ es, ∀ y, rank d.1 d.2 = some y → x ≤ y := by
  induction es generalizing e with
  | nil => cases h
  | cons d es ih =>
    unfold leastRankedIn at h
    split at h
    · rename_i hd
      obtain ⟨hmem, x, hx, hle⟩ := ih h
      refine ⟨List.mem_cons_of_mem _ hmem, x, hx, ?_⟩
      rintro c (_ | ⟨_, hc⟩) y hy
      · simp [hd] at hy
      · exact hle c hc y hy
    · rename_i z hd hnone
      cases h
      refine ⟨List.mem_cons_self, z, hd, ?_⟩
      rintro c (_ | ⟨_, hc⟩) y hy
      · simp_all
      · simp [leastRankedIn_none hnone c hc] at hy
    · rename_i z best hd hbest
      obtain ⟨hmem, x, hx, hle⟩ := ih hbest
      rw [hx, Option.getD_some] at h
      split_ifs at h with hlt
      · cases h
        refine ⟨List.mem_cons_of_mem _ hmem, x, hx, ?_⟩
        rintro c (_ | ⟨_, hc⟩) y hy
        · have : z = y := by simpa [hd] using hy
          omega
        · exact hle c hc y hy
      · cases h
        refine ⟨List.mem_cons_self, z, hd, ?_⟩
        rintro c (_ | ⟨_, hc⟩) y hy
        · simp_all
        · have := hle c hc y hy
          omega

variable [DecidableEq κ]

/-- The answer of a transaction and the rows it leaves, or its error; the
sequence advances either way. -/
def Txn.eval : Txn Row ε α → Store Row → ℕ → Except ε (α × Store Row) × ℕ
  | .pure a, s, n => (.ok (a, s), n)
  | .throw e, _, n => (.error e, n)
  | .read next, s, n => (next s).eval s n
  | .write k update next, s, n =>
    match update (s.lookup k) with
    | .ok row => (next row).eval (s.insert k row) n
    | .error e => (.error e, n)
  | .claim rank next, s, n =>
    match leastRanked rank s with
    | some e => (next (some e)).eval (s.insert e.1 e.2) n
    | none => (next none).eval s n
  | .fresh next, s, n => (next n).eval s (n + 1)

/-- The transaction succeeds on these rows, wherever the sequence stands. -/
def Txn.Succeeds (body : Txn Row ε α) (s : Store Row) : Prop :=
  ∀ n, ∃ a s' n', body.eval s n = (.ok (a, s'), n')

namespace Txn

theorem succeeds_pure (a : α) (s : Store Row) : (Txn.pure a : Txn Row ε α).Succeeds s :=
  fun n => ⟨a, s, n, rfl⟩

theorem succeeds_fresh {next : ℕ → Txn Row ε α} {s : Store Row}
    (h : ∀ n, (next n).Succeeds s) : (Txn.fresh next).Succeeds s :=
  fun n => h n (n + 1)

theorem succeeds_write {k : κ} {update : Option (Row k) → Except ε (Row k)}
    {next : Row k → Txn Row ε α} {s : Store Row}
    (h : ∃ row, update (s.lookup k) = .ok row ∧ (next row).Succeeds (s.insert k row)) :
    (Txn.write k update next).Succeeds s := by
  intro n
  obtain ⟨row, hu, hnext⟩ := h
  rw [Txn.eval, hu]
  exact hnext n

end Txn

/-- The outcome of a process and the rows it leaves: a failed transaction
leaves the rows as they were. -/
def Proc.run : Proc Row ε α ω → Store Row → ℕ → ω × Store Row × ℕ
  | .done o, s, n => (o, s, n)
  | .txn body next, s, n =>
    match body.eval s n with
    | (.ok (a, s'), n') => (next (.ok a)).run s' n'
    | (.error e, n') => (next (.error e)).run s n'

theorem runs_of_eval (body : Txn Row ε α) {s s' : Store Row} {n n' : ℕ} {a : α}
    (h : body.eval s n = (.ok (a, s'), n')) :
    ∃ log, Runs body log (.ok a) ∧ Consistent log s ∧ view log s = s' := by
  induction body generalizing s n with
  | pure b =>
    cases h
    exact ⟨[], .pure a, trivial, rfl⟩
  | throw e => cases h
  | read f ih =>
    obtain ⟨log, hruns, hlog, hview⟩ := ih s h
    exact ⟨log, .read s hruns, hlog, hview⟩
  | write k update f ih =>
    cases hu : update (s.lookup k) with
    | error e =>
      simp only [Txn.eval, hu] at h
      cases h
    | ok row =>
      simp only [Txn.eval, hu] at h
      obtain ⟨log, hruns, hlog, hview⟩ := ih row h
      exact ⟨⟨k, s.lookup k, row⟩ :: log, .write _ _ hu hruns, ⟨rfl, hlog⟩, hview⟩
  | claim rank f ih =>
    cases hl : leastRanked rank s with
    | none =>
      simp only [Txn.eval, hl] at h
      obtain ⟨log, hruns, hlog, hview⟩ := ih none h
      exact ⟨log, .claimNone hruns, hlog, hview⟩
    | some e =>
      simp only [Txn.eval, hl] at h
      obtain ⟨log, hruns, hlog, hview⟩ := ih (some e) h
      obtain ⟨hmem, x, hx, -⟩ := leastRankedIn_some hl
      exact ⟨⟨e.1, some e.2, e.2⟩ :: log, .claim hx hruns,
        ⟨AList.mem_lookup_iff.2 hmem, hlog⟩, hview⟩
  | fresh f ih =>
    obtain ⟨log, hruns, hlog, hview⟩ := ih n h
    exact ⟨log, .fresh n hruns, hlog, hview⟩

theorem mem_of_leastRanked {rank : (k : κ) → Row k → Option ℤ} {s : Store Row} {e : Sigma Row}
    (h : leastRanked rank s = some e) : s.lookup e.1 = some e.2 ∧
      ∃ x, rank e.1 e.2 = some x ∧
        ∀ k row y, s.lookup k = some row → rank k row = some y → x ≤ y := by
  obtain ⟨hmem, x, hx, hle⟩ := leastRankedIn_some h
  refine ⟨AList.mem_lookup_iff.2 hmem, x, hx, fun k row y hk => ?_⟩
  exact hle ⟨k, row⟩ (AList.mem_lookup_iff.1 hk) y

theorem rank_of_leastRanked_none {rank : (k : κ) → Row k → Option ℤ} {s : Store Row}
    (h : leastRanked rank s = none) (k : κ) (row : Row k) (hk : s.lookup k = some row) :
    rank k row = none :=
  leastRankedIn_none h ⟨k, row⟩ (AList.mem_lookup_iff.1 hk)

variable [DecidableEq ι] {faults : ε → Prop} {i : ι}

/-- The world once the open transaction of process `i` has ended this way. -/
def World.settled (w : World ι Row ε α ω) (i : ι) (next : Except ε α → Proc Row ε α ω) :
    Except ε (α × Store Row) × ℕ → World ι Row ε α ω
  | (.ok (a, s), n) =>
    { w with committed := s, sequence := n }.move i (.resting (next (.ok a)))
  | (.error e, n) => { w with sequence := n }.move i (.resting (next (.error e)))

omit [DecidableEq κ] in
theorem World.settled_move (w : World ι Row ε α ω) (st : Station Row ε α ω)
    (next : Except ε α → Proc Row ε α ω) (r : Except ε (α × Store Row) × ℕ) :
    (w.move i st).settled i next r = w.settled i next r := by
  rcases r with ⟨_ | ⟨a, s⟩, n⟩ <;> simp [World.settled, World.move]

omit [DecidableEq κ] in
theorem World.free_move {w : World ι Row ε α ω} (hfree : ∀ k, w.Free i k)
    (st : Station Row ε α ω) (k : κ) : (w.move i st).Free i k := by
  intro j hj
  rw [World.move_stations_of_ne _ _ hj]
  exact hfree k j hj

theorem Step.guarded {C : List (Change Row) → Store Row → Prop} {w w' : World ι Row ε α ω}
    {log : List (Change Row)} {rest : Txn Row ε α} {next : Except ε α → Proc Row ε α ω}
    (hs : Step faults i w w') (hi : w.stations i = .inside log rest next)
    (hrest : ∀ a, rest ≠ .pure a) : GuardedStep faults C w w' := by
  refine ⟨i, hs, ?_⟩
  rintro log' a ⟨next', hpure, -⟩
  cases hi.symm.trans hpure
  exact absurd rfl (hrest a)

/-- A transaction that runs alone ends as `Txn.eval` computes, by steps that meet
every guard its log meets. -/
theorem eval_guarded {C : List (Change Row) → Store Row → Prop} (rest : Txn Row ε α)
    {w : World ι Row ε α ω} {log : List (Change Row)} {next : Except ε α → Proc Row ε α ω}
    (hi : w.stations i = .inside log rest next) (hfree : ∀ k, w.Free i k)
    (hlog : Consistent log w.committed)
    (hC : ∀ more a, Runs rest more (.ok a) → Consistent (log ++ more) w.committed →
      C (log ++ more) w.committed) :
    Relation.ReflTransGen (GuardedStep faults C) w
      (w.settled i next (rest.eval (view log w.committed) w.sequence)) := by
  induction rest generalizing w log with
  | pure a =>
    refine .single ⟨i, .commit hi, ?_⟩
    rintro log' a' ⟨next', hpure, -⟩
    cases hi.symm.trans hpure
    have hcommit := hC [] a (.pure a)
    rw [List.append_nil] at hcommit
    exact hcommit hlog
  | throw e => exact .single (Step.guarded (.throw hi) hi fun _ => nofun)
  | read f ih =>
    refine .head (Step.guarded (.read hi) hi fun _ => nofun) ?_
    have := ih (view log w.committed) (w := w.move i (.inside log (f _) next))
      (World.move_stations_self _ _ _) (World.free_move hfree _) hlog
      fun more a hruns => hC more a (.read _ hruns)
    rwa [World.settled_move] at this
  | write k update f ih =>
    cases hu : update ((view log w.committed).lookup k) with
    | error e =>
      simp only [Txn.eval, hu]
      exact .single (Step.guarded (.writeFail hi (hfree k) hu) hi fun _ => nofun)
    | ok row =>
      simp only [Txn.eval, hu]
      refine .head (Step.guarded (.write hi (hfree k) hu) hi fun _ => nofun) ?_
      have hmoved := World.move_stations_self w i
        (.inside (log ++ [⟨k, (view log w.committed).lookup k, row⟩]) (f row) next)
      have := ih row hmoved (World.free_move hfree _)
        ((consistent_append _ _ _).2 ⟨hlog, rfl, trivial⟩) fun more a hruns => by
          rw [List.append_assoc]
          exact hC _ a (.write _ _ hu hruns)
      rwa [World.settled_move, World.move_committed, view_append] at this
  | claim rank f ih =>
    cases hl : leastRanked rank (view log w.committed) with
    | none =>
      simp only [Txn.eval, hl]
      refine .head (Step.guarded (.claimNone hi fun k row _ hk =>
        rank_of_leastRanked_none hl k row hk) hi fun _ => nofun) ?_
      have := ih none (w := w.move i (.inside log (f none) next))
        (World.move_stations_self _ _ _) (World.free_move hfree _) hlog
        fun more a hruns => hC more a (.claimNone hruns)
      rwa [World.settled_move] at this
    | some e =>
      obtain ⟨k, row⟩ := e
      obtain ⟨hrow, x, hx, hleast⟩ := mem_of_leastRanked hl
      simp only [Txn.eval, hl]
      refine .head (Step.guarded (.claim hi (hfree k) hrow hx fun k' row' y _ =>
        hleast k' row' y) hi fun _ => nofun) ?_
      have := ih (some ⟨k, row⟩)
        (w := w.move i (.inside (log ++ [⟨k, some row, row⟩]) (f (some ⟨k, row⟩)) next))
        (World.move_stations_self _ _ _) (World.free_move hfree _)
        ((consistent_append _ _ _).2 ⟨hlog, hrow, trivial⟩) fun more a hruns => by
          rw [List.append_assoc]
          exact hC _ a (.claim hx hruns)
      rwa [World.settled_move, World.move_committed, view_append] at this
  | fresh f ih =>
    refine .head (Step.guarded (.fresh hi) hi fun _ => nofun) ?_
    have := ih w.sequence
      (w := ({ w with sequence := w.sequence + 1 } : World ι Row ε α ω).move i
        (.inside log (f w.sequence) next))
      (World.move_stations_self _ _ _)
      (World.free_move (w := { w with sequence := w.sequence + 1 }) hfree _) hlog
      fun more a hruns => hC more a (.fresh _ hruns)
    rw [World.settled_move] at this
    exact this

theorem GuardedStep.any {C : List (Change Row) → Store Row → Prop} {w w' : World ι Row ε α ω}
    (h : GuardedStep faults C w w') : AnyStep faults w w' := by
  obtain ⟨i, hs, -⟩ := h
  exact ⟨i, hs⟩

/-- The same from the start of a transaction. -/
theorem txn_guarded {C : List (Change Row) → Store Row → Prop} (body : Txn Row ε α)
    {w : World ι Row ε α ω} {next : Except ε α → Proc Row ε α ω}
    (hi : w.stations i = .resting (.txn body next)) (hfree : ∀ k, w.Free i k)
    (hC : ∀ log a, Runs body log (.ok a) → Consistent log w.committed → C log w.committed) :
    Relation.ReflTransGen (GuardedStep faults C) w
      (w.settled i next (body.eval w.committed w.sequence)) := by
  have hstart : GuardedStep faults C w (w.move i (.inside [] body next)) := by
    refine ⟨i, .start hi, ?_⟩
    rintro log a ⟨next', hpure, -⟩
    cases hi.symm.trans hpure
  have hbody : Relation.ReflTransGen (GuardedStep faults C) _ _ :=
    eval_guarded body (World.move_stations_self w i (.inside [] body next))
      (World.free_move hfree _) trivial hC
  rw [World.settled_move, World.move_committed, World.move_sequence, view_nil] at hbody
  exact .head hstart hbody

/-- The world once process `i` is done, with this outcome, rows and sequence. -/
def World.finished (w : World ι Row ε α ω) (i : ι) (r : ω × Store Row × ℕ) : World ι Row ε α ω :=
  { w with committed := r.2.1, sequence := r.2.2 }.move i (.resting (.done r.1))

omit [DecidableEq κ] in
theorem World.finished_move (w : World ι Row ε α ω) (s : Store Row) (n : ℕ)
    (st : Station Row ε α ω) (r : ω × Store Row × ℕ) :
    (({ w with committed := s, sequence := n } : World ι Row ε α ω).move i st).finished i r =
      w.finished i r := by
  simp [World.finished, World.move]

/-- A process that starts among resting ones and runs alone ends as `Proc.run`
computes. -/
theorem run_reachable (p : Proc Row ε α ω) {w : World ι Row ε α ω}
    (hi : w.stations i = .resting p) (hfree : ∀ k, w.Free i k) :
    Reachable faults w (w.finished i (p.run w.committed w.sequence)) := by
  induction p generalizing w with
  | done o =>
    have : w.finished i (o, w.committed, w.sequence) = w := by
      simp [World.finished, World.move, ← hi]
    rw [Proc.run, this]
    exact .refl
  | txn body next ih =>
    have hbody : Reachable faults w (w.settled i next (body.eval w.committed w.sequence)) :=
      Relation.ReflTransGen.mono (fun _ _ h => GuardedStep.any h) _ _
        (txn_guarded (C := fun _ _ => True) body hi hfree fun _ _ _ _ => trivial)
    refine hbody.trans ?_
    simp only [Proc.run]
    rcases body.eval w.committed w.sequence with ⟨e | ⟨a, s⟩, n⟩
    · have := ih (.error e)
        (w := ({ w with sequence := n } : World ι Row ε α ω).move i (.resting (next (.error e))))
        (World.move_stations_self _ _ _) (World.free_move (w := { w with sequence := n }) hfree _)
      rwa [World.finished_move w w.committed n] at this
    · have := ih (.ok a)
        (w := ({ w with committed := s, sequence := n } : World ι Row ε α ω).move i
          (.resting (next (.ok a))))
        (World.move_stations_self _ _ _)
        (World.free_move (w := { w with committed := s, sequence := n }) hfree _)
      rwa [World.finished_move w s n] at this

/-- Every process is between transactions. -/
def World.Resting (w : World ι Row ε α ω) : Prop := ∀ i, ∃ p : Proc Row ε α ω, w.stations i = .resting p

omit [DecidableEq κ] [DecidableEq ι] in
theorem World.Resting.free {w : World ι Row ε α ω} (h : w.Resting) (i : ι) (k : κ) : w.Free i k := by
  intro j _
  obtain ⟨p, hp⟩ := h j
  rw [hp]
  exact List.not_mem_nil

omit [DecidableEq κ] in
theorem World.Resting.move {w : World ι Row ε α ω} (h : w.Resting) (i : ι) (p : Proc Row ε α ω) :
    (w.move i (.resting p)).Resting := by
  intro j
  rcases eq_or_ne j i with rfl | hj
  · exact ⟨p, World.move_stations_self _ _ _⟩
  · rw [World.move_stations_of_ne _ _ hj]
    exact h j

theorem run_resting {w : World ι Row ε α ω} {p : Proc Row ε α ω} (h : w.Resting)
    (hi : w.stations i = .resting p) :
    ∃ w', Reachable faults w w' ∧ w'.Resting ∧
      w'.committed = (p.run w.committed w.sequence).2.1 ∧
      w'.sequence = (p.run w.committed w.sequence).2.2 ∧
      ∀ j, j ≠ i → w'.stations j = w.stations j := by
  refine ⟨_, run_reachable p hi (h.free i), ?_, rfl, rfl,
    fun j hj => World.move_stations_of_ne _ _ hj _⟩
  exact World.Resting.move (w := { w with
    committed := (p.run w.committed w.sequence).2.1
    sequence := (p.run w.committed w.sequence).2.2 }) h i _

variable (faults) in
/-- The same of a process of one transaction, by steps that meet every guard its log meets. -/
theorem txn_resting {C : List (Change Row) → Store Row → Prop} {w : World ι Row ε α ω}
    {body : Txn Row ε α} {next : Except ε α → Proc Row ε α ω} (h : w.Resting)
    (hi : w.stations i = .resting (.txn body next)) (hdone : ∀ r, ∃ o, next r = .done o)
    (hC : ∀ log a, Runs body log (.ok a) → Consistent log w.committed → C log w.committed) :
    ∃ w', Relation.ReflTransGen (GuardedStep faults C) w w' ∧ w'.Resting ∧
      w'.committed = ((Proc.txn body next).run w.committed w.sequence).2.1 ∧
      w'.sequence = ((Proc.txn body next).run w.committed w.sequence).2.2 ∧
      ∀ j, j ≠ i → w'.stations j = w.stations j := by
  refine ⟨_, txn_guarded body hi (h.free i) hC, ?_⟩
  simp only [Proc.run]
  rcases body.eval w.committed w.sequence with ⟨e | ⟨a, s⟩, n⟩
  · obtain ⟨o, ho⟩ := hdone (.error e)
    simp only [World.settled, ho, Proc.run]
    exact ⟨World.Resting.move (w := { w with sequence := n }) h i _, rfl, rfl,
      fun j hj => World.move_stations_of_ne _ _ hj _⟩
  · obtain ⟨o, ho⟩ := hdone (.ok a)
    simp only [World.settled, ho, Proc.run]
    exact ⟨World.Resting.move (w := { w with committed := s, sequence := n }) h i _, rfl, rfl,
      fun j hj => World.move_stations_of_ne _ _ hj _⟩

end TrueFigure.Library
