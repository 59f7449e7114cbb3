import TrueFigure.Library.Transactions

/-!
# What a transaction has read

A read shows rows that were committed at some earlier moment, under what its own
transaction has written. Where every commit only moves the rows up along a
preorder, whatever a transaction has read is below the rows it is committed to.
-/
namespace TrueFigure.Library

variable {κ : Type} [DecidableEq κ] {Row : κ → Type} {ε α ω ι : Type}

/-- A run that has written `log` so far, each of whose reads shows rows `seen`
under what the run has written by then. -/
inductive Sees (seen : Store Row → Prop) :
    List (Change Row) → Txn Row ε α → List (Change Row) → Except ε α → Prop
  | pure {log : List (Change Row)} (a : α) : Sees seen log (.pure a) [] (.ok a)
  | throw {log : List (Change Row)} (e : ε) : Sees seen log (.throw e) [] (.error e)
  | read {log more : List (Change Row)} {next : Store Row → Txn Row ε α} {r : Except ε α}
      {s : Store Row} (hs : seen s) (h : Sees seen log (next (view log s)) more r) :
      Sees seen log (.read next) more r
  | write {log more : List (Change Row)} {k : κ} {update : Option (Row k) → Except ε (Row k)}
      {next : Row k → Txn Row ε α} {r : Except ε α} {before : Option (Row k)} {after : Row k}
      (hu : update before = .ok after)
      (h : Sees seen (log ++ [⟨k, before, after⟩]) (next after) more r) :
      Sees seen log (.write k update next) (⟨k, before, after⟩ :: more) r
  | claimNone {log more : List (Change Row)} {rank : (k : κ) → Row k → Option ℤ}
      {next : Option (Sigma Row) → Txn Row ε α} {r : Except ε α}
      (h : Sees seen log (next none) more r) : Sees seen log (.claim rank next) more r
  | claim {log more : List (Change Row)} {rank : (k : κ) → Row k → Option ℤ}
      {next : Option (Sigma Row) → Txn Row ε α} {r : Except ε α} {k : κ} {row : Row k} {x : ℤ}
      (hrank : rank k row = some x)
      (h : Sees seen (log ++ [⟨k, some row, row⟩]) (next (some ⟨k, row⟩)) more r) :
      Sees seen log (.claim rank next) (⟨k, some row, row⟩ :: more) r
  | fresh {log more : List (Change Row)} {next : ℕ → Txn Row ε α} {r : Except ε α} (n : ℕ)
      (h : Sees seen log (next n) more r) : Sees seen log (.fresh next) more r

namespace Sees

variable {seen : Store Row → Prop} {body : Txn Row ε α} {log more : List (Change Row)}
  {r : Except ε α} {a : α}

theorem of_pure (h : Sees seen log (.pure a) more r) : more = [] ∧ r = .ok a := by
  cases h
  exact ⟨rfl, rfl⟩

theorem not_throw {e : ε} (h : Sees seen log (.throw e) more (.ok a)) : False := by
  cases h

theorem of_read {next : Store Row → Txn Row ε α} (h : Sees seen log (.read next) more r) :
    ∃ s, seen s ∧ Sees seen log (next (view log s)) more r := by
  cases h with
  | read hs h => exact ⟨_, hs, h⟩

theorem of_fresh {next : ℕ → Txn Row ε α} (h : Sees seen log (.fresh next) more r) :
    ∃ n, Sees seen log (next n) more r := by
  cases h with
  | fresh n h => exact ⟨n, h⟩

theorem of_write {k : κ} {update : Option (Row k) → Except ε (Row k)} {next : Row k → Txn Row ε α}
    (h : Sees seen log (.write k update next) more (.ok a)) :
    ∃ before after rest, update before = .ok after ∧ more = ⟨k, before, after⟩ :: rest ∧
      Sees seen (log ++ [⟨k, before, after⟩]) (next after) rest (.ok a) := by
  cases h with
  | write hu h => exact ⟨_, _, _, hu, rfl, h⟩

theorem of_claim {rank : (k : κ) → Row k → Option ℤ} {next : Option (Sigma Row) → Txn Row ε α}
    (h : Sees seen log (.claim rank next) more r) :
    Sees seen log (next none) more r ∨ ∃ k row x rest, rank k row = some x ∧
      more = ⟨k, some row, row⟩ :: rest ∧
        Sees seen (log ++ [⟨k, some row, row⟩]) (next (some ⟨k, row⟩)) rest r := by
  cases h with
  | claimNone h => exact .inl h
  | claim hrank h => exact .inr ⟨_, _, _, _, hrank, rfl, h⟩

theorem runs (h : Sees seen log body more r) : Runs body more r := by
  induction h with
  | pure a => exact .pure a
  | throw e => exact .throw e
  | read _ _ ih => exact .read _ ih
  | write hu _ ih => exact .write _ _ hu ih
  | claimNone _ ih => exact .claimNone ih
  | claim hrank _ ih => exact .claim hrank ih
  | fresh n _ ih => exact .fresh n ih

end Sees

/-- The steps `body` has taken, by reads of rows `seen`, to come to `rest` with
`log` written. -/
inductive Leads (seen : Store Row → Prop) (body : Txn Row ε α) :
    List (Change Row) → Txn Row ε α → Prop
  | refl : Leads seen body [] body
  | read {log : List (Change Row)} {next : Store Row → Txn Row ε α} {s : Store Row}
      (h : Leads seen body log (.read next)) (hs : seen s) :
      Leads seen body log (next (view log s))
  | write {log : List (Change Row)} {k : κ} {update : Option (Row k) → Except ε (Row k)}
      {next : Row k → Txn Row ε α} {before : Option (Row k)} {after : Row k}
      (h : Leads seen body log (.write k update next)) (hu : update before = .ok after) :
      Leads seen body (log ++ [⟨k, before, after⟩]) (next after)
  | claimNone {log : List (Change Row)} {rank : (k : κ) → Row k → Option ℤ}
      {next : Option (Sigma Row) → Txn Row ε α} (h : Leads seen body log (.claim rank next)) :
      Leads seen body log (next none)
  | claim {log : List (Change Row)} {rank : (k : κ) → Row k → Option ℤ}
      {next : Option (Sigma Row) → Txn Row ε α} {k : κ} {row : Row k} {x : ℤ}
      (h : Leads seen body log (.claim rank next)) (hrank : rank k row = some x) :
      Leads seen body (log ++ [⟨k, some row, row⟩]) (next (some ⟨k, row⟩))
  | fresh {log : List (Change Row)} {next : ℕ → Txn Row ε α}
      (h : Leads seen body log (.fresh next)) (n : ℕ) : Leads seen body log (next n)

namespace Leads

variable {seen seen' : Store Row → Prop} {body rest : Txn Row ε α} {log more : List (Change Row)}
  {r : Except ε α}

theorem mono (h : Leads seen body log rest) (hseen : ∀ s, seen s → seen' s) :
    Leads seen' body log rest := by
  induction h with
  | refl => exact .refl
  | read _ hs ih => exact .read ih (hseen _ hs)
  | write _ hu ih => exact .write ih hu
  | claimNone _ ih => exact .claimNone ih
  | claim _ hrank ih => exact .claim ih hrank
  | fresh _ n ih => exact .fresh ih n

/-- A run of the rest is the end of a run of the whole. -/
theorem sees (h : Leads seen body log rest) (hrest : Sees seen log rest more r) :
    Sees seen [] body (log ++ more) r := by
  induction h generalizing more with
  | refl => exact hrest
  | read _ hs ih => exact ih (.read hs hrest)
  | write _ hu ih =>
    rw [List.append_assoc]
    exact ih (.write hu hrest)
  | claimNone _ ih => exact ih (.claimNone hrest)
  | claim _ hrank ih =>
    rw [List.append_assoc]
    exact ih (.claim hrank hrest)
  | fresh _ n ih => exact ih (.fresh n hrest)

end Leads

/-! ### Invariants that know what was read -/

/-- Rows that satisfied `I` at some moment before the rows `s`. -/
def Earlier (I : Store Row → Prop) (R : Store Row → Store Row → Prop) (s : Store Row) :
    Store Row → Prop :=
  fun t => I t ∧ R t s

/-- A run that reads rows committed earlier keeps the invariant, and moves the
rows up. -/
def PreservesSeen (I : Store Row → Prop) (R : Store Row → Store Row → Prop)
    (body : Txn Row ε α) : Prop :=
  ∀ log a s, Sees (Earlier I R s) [] body log (.ok a) → Consistent log s → I s →
    I (view log s) ∧ R s (view log s)

/-- The committed rows satisfy `I`, the sessions are in order, and what a session
has read is below the committed rows. -/
structure WorldSeen (I : Store Row → Prop) (R : Store Row → Store Row → Prop)
    (w : World ι Row ε α ω) : Prop where
  committed : I w.committed
  sound : Sound (PreservesSeen I R) w
  leads : ∀ i log rest next, w.stations i = .inside log rest next →
    ∃ body : Txn Row ε α, PreservesSeen I R body ∧
      Leads (Earlier I R w.committed) body log rest

variable {I : Store Row → Prop} {R : Store Row → Store Row → Prop} {w w' : World ι Row ε α ω}
  {i : ι}

theorem World.Idle.worldSeen (h : w.Idle (PreservesSeen I R)) (hI : I w.committed) :
    WorldSeen I R w := by
  refine ⟨hI, h.sound, fun i log rest next hi => ?_⟩
  obtain ⟨p, hp, -⟩ := h i
  cases hi.symm.trans hp

namespace WorldSeen

variable [DecidableEq ι]

/-- What is committed is a whole run that has read rows below the committed ones. -/
theorem sees_of_commits (h : WorldSeen I R w) {log : List (Change Row)} {a : α}
    (hc : Commits i log a w w') :
    ∃ body : Txn Row ε α, PreservesSeen I R body ∧
      Sees (Earlier I R w.committed) [] body log (.ok a) ∧ Consistent log w.committed := by
  obtain ⟨next, hi, -⟩ := hc
  obtain ⟨body, hbody, hleads⟩ := h.leads i _ _ _ hi
  obtain ⟨-, -, -, hlog⟩ := h.sound.runs_of_commits ⟨next, hi, rfl⟩
  exact ⟨body, hbody, by simpa using hleads.sees (.pure a), hlog⟩

/-- Only a commit moves the rows, and it moves them up. -/
theorem grows [Std.Refl R] (h : WorldSeen I R w) {faults : ε → Prop} (hs : Step faults i w w') :
    I w'.committed ∧ R w.committed w'.committed := by
  rcases hs.committed_eq with heq | ⟨log, a, hc⟩
  · rw [heq]
    exact ⟨h.committed, refl _⟩
  · obtain ⟨body, hbody, hsees, hlog⟩ := h.sees_of_commits hc
    rw [hc.committed_eq]
    exact hbody log a _ hsees hlog h.committed

/-- The other stations see the same reads below the new rows. -/
theorem leads_move [IsTrans _ R] (h : WorldSeen I R w) (hgrows : R w.committed w'.committed)
    {st : Station Row ε α ω} (hothers : w'.stations = Function.update w.stations i st)
    (hst : ∀ log rest next, st = .inside log rest next →
      ∃ body, PreservesSeen I R body ∧ Leads (Earlier I R w.committed) body log rest) :
    ∀ j log rest next, w'.stations j = .inside log rest next →
      ∃ body, PreservesSeen I R body ∧ Leads (Earlier I R w'.committed) body log rest := by
  intro j log rest next hj
  have hbefore : ∃ body, PreservesSeen I R body ∧ Leads (Earlier I R w.committed) body log rest := by
    rw [hothers] at hj
    rcases eq_or_ne j i with rfl | hne
    · rw [Function.update_self] at hj
      exact hst _ _ _ hj
    · rw [Function.update_of_ne hne] at hj
      exact h.leads j _ _ _ hj
  obtain ⟨body, hbody, hleads⟩ := hbefore
  refine ⟨body, hbody, hleads.mono ?_⟩
  rintro t ⟨ht, htR⟩
  exact ⟨ht, IsTrans.trans _ _ _ htR hgrows⟩

variable [Std.Refl R] [IsTrans _ R]

theorem step (h : WorldSeen I R w) {faults : ε → Prop} (hs : Step faults i w w') :
    WorldSeen I R w' := by
  obtain ⟨hI, hR⟩ := h.grows hs
  refine ⟨hI, h.sound.step hs, ?_⟩
  cases hs with
  | start hi =>
    refine h.leads_move hR rfl fun log rest next hst => ?_
    cases hst
    have hall := h.sound.station i
    rw [hi] at hall
    exact ⟨_, hall.1, .refl⟩
  | read hi =>
    refine h.leads_move hR rfl fun log rest next hst => ?_
    cases hst
    obtain ⟨body, hbody, hleads⟩ := h.leads i _ _ _ hi
    exact ⟨body, hbody, hleads.read ⟨h.committed, refl _⟩⟩
  | fresh hi =>
    refine h.leads_move hR rfl fun log rest next hst => ?_
    cases hst
    obtain ⟨body, hbody, hleads⟩ := h.leads i _ _ _ hi
    exact ⟨body, hbody, hleads.fresh _⟩
  | write hi _ hu =>
    refine h.leads_move hR rfl fun log rest next hst => ?_
    cases hst
    obtain ⟨body, hbody, hleads⟩ := h.leads i _ _ _ hi
    exact ⟨body, hbody, hleads.write hu⟩
  | claim hi _ _ hrank _ =>
    refine h.leads_move hR rfl fun log rest next hst => ?_
    cases hst
    obtain ⟨body, hbody, hleads⟩ := h.leads i _ _ _ hi
    exact ⟨body, hbody, hleads.claim hrank⟩
  | claimNone hi =>
    refine h.leads_move hR rfl fun log rest next hst => ?_
    cases hst
    obtain ⟨body, hbody, hleads⟩ := h.leads i _ _ _ hi
    exact ⟨body, hbody, hleads.claimNone⟩
  | writeFail => exact h.leads_move hR rfl nofun
  | commit => exact h.leads_move hR rfl nofun
  | throw => exact h.leads_move hR rfl nofun
  | abort => exact h.leads_move hR rfl nofun

theorem reachable (h : WorldSeen I R w) {faults : ε → Prop} (hr : Reachable faults w w') :
    WorldSeen I R w' ∧ R w.committed w'.committed := by
  induction hr with
  | refl => exact ⟨h, refl _⟩
  | tail _ hs ih =>
    obtain ⟨hseen, hgrows⟩ := ih
    obtain ⟨i, hs⟩ := hs
    exact ⟨hseen.step hs, IsTrans.trans _ _ _ hgrows (hseen.grows hs).2⟩

end WorldSeen

end TrueFigure.Library
