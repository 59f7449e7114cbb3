import TrueFigure.Library.Transactions

/-!
# Rows that only move up

Each table has an order on its rows. Where every transaction on its own loses no
row and moves each up, every interleaving does.
-/
namespace TrueFigure.Library

variable {κ : Type} [DecidableEq κ] {Row : κ → Type} {ε α ω ι : Type}

/-- A row that a log leaves was there, or a change that made it another has put it there. -/
theorem lookup_view_cases {log : List (Change Row)} {s : Store Row} {k : κ} {row : Row k}
    (hlog : Consistent log s) (h : (view log s).lookup k = some row) :
    s.lookup k = some row ∨
      ∃ before, (⟨k, before, row⟩ : Change Row) ∈ log ∧ before ≠ some row := by
  induction log generalizing s with
  | nil => exact .inl h
  | cons c log ih =>
    obtain ⟨hbefore, hlog⟩ := hlog
    rcases ih hlog h with hrow | ⟨before, hmem, hne⟩
    · by_cases hkey : k = c.key
      · subst hkey
        cases (AList.lookup_insert s).symm.trans hrow
        by_cases hsame : c.before = some c.after
        · exact .inl (hbefore.trans hsame)
        · exact .inr ⟨c.before, List.mem_cons_self, hsame⟩
      · exact .inl ((AList.lookup_insert_ne hkey).symm.trans hrow)
    · exact .inr ⟨before, List.mem_cons_of_mem c hmem, hne⟩

/-- A preorder on the rows of each key. -/
structure RowOrder (Row : κ → Type) where
  le : (k : κ) → Row k → Row k → Prop
  refl : ∀ k row, le k row row
  trans : ∀ k row row' row'', le k row row' → le k row' row'' → le k row row''

namespace RowOrder

variable (o : RowOrder Row)

/-- Every row of `s` is there in `s'`, where it has moved up. -/
def Above (s s' : Store Row) : Prop :=
  ∀ k row, s.lookup k = some row → ∃ row', s'.lookup k = some row' ∧ o.le k row row'

/-- Committing a run of `body` moves the rows up. -/
def Raises (body : Txn Row ε α) : Prop :=
  ∀ log a s, Runs body log (.ok a) → Consistent log s → o.Above s (view log s)

variable {o} {s s' s'' : Store Row} {log : List (Change Row)} {k : κ} {row : Row k}

theorem Above.refl (s : Store Row) : o.Above s s := fun k row h => ⟨row, h, o.refl k row⟩

theorem Above.trans (h : o.Above s s') (h' : o.Above s' s'') : o.Above s s'' := by
  intro k row hrow
  obtain ⟨row', hrow', hle⟩ := h k row hrow
  obtain ⟨row'', hrow'', hle'⟩ := h' k row' hrow'
  exact ⟨row'', hrow'', o.trans k row row' row'' hle hle'⟩

/-- A row moves up along a log each of whose changes to it does. -/
theorem above_view (hlog : Consistent log s)
    (h : ∀ c ∈ log, c.key = k → ∀ old, c.before = some old → o.le c.key old c.after)
    (hrow : s.lookup k = some row) :
    ∃ row', (view log s).lookup k = some row' ∧ o.le k row row' := by
  induction log generalizing s row with
  | nil => exact ⟨row, hrow, o.refl k row⟩
  | cons c log ih =>
    obtain ⟨hbefore, hlog⟩ := hlog
    have hrest : ∀ d ∈ log, d.key = k → ∀ old, d.before = some old → o.le d.key old d.after :=
      fun d hd => h d (List.mem_cons_of_mem c hd)
    by_cases hkey : k = c.key
    · subst hkey
      have hfirst := h c List.mem_cons_self rfl row (hbefore.symm.trans hrow)
      obtain ⟨row', hrow', hle⟩ := ih hlog hrest (AList.lookup_insert s)
      exact ⟨row', hrow', o.trans _ _ _ _ hfirst hle⟩
    · exact ih hlog hrest ((AList.lookup_insert_ne hkey).trans hrow)

theorem raises_of_changes {body : Txn Row ε α}
    (h : ∀ log a, Runs body log (.ok a) → ∀ c ∈ log, ∀ old, c.before = some old →
      o.le c.key old c.after) : o.Raises body := by
  intro log a s hruns hlog k row hrow
  exact above_view hlog (fun c hc _ => h log a hruns c hc) hrow

theorem Raises.preserves {body : Txn Row ε α} (h : o.Raises body) (s₀ : Store Row) :
    Preserves (o.Above s₀) body := by
  intro log a s hruns hlog hs
  exact hs.trans (h log a s hruns hlog)

/-- Between any two moments of a run of such transactions the rows move up. -/
theorem above_of_reachable [DecidableEq ι] {faults : ε → Prop} {w₀ w w' : World ι Row ε α ω}
    (hidle : w₀.Idle o.Raises) (hreach : Reachable faults w₀ w) (hreach' : Reachable faults w w') :
    o.Above w.committed w'.committed := by
  have hok : WorldOk (o.Above w.committed) w :=
    (hidle.sound.reachable hreach).worldOk (fun _ hbody => hbody.preserves _) (.refl _)
  exact (hok.reachable hreach').committed

end RowOrder

end TrueFigure.Library
