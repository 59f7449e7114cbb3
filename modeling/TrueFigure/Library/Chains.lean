import Mathlib.Data.Nat.Basic
import Mathlib.Logic.Relation

/-!
# Chains of pointers

Following a pointer that every node has at most once. Where pointers go up and stay
below a bound they run out, and the end of a chain is the only one its nodes reach.
-/
namespace TrueFigure.Library

variable {α : Type} (next : α → Option α)

/-- One node is reached from another by following pointers. -/
def LeadsTo : α → α → Prop := Relation.ReflTransGen fun a b => next a = some b

variable {next} {a b c : α}

theorem leadsTo_refl (a : α) : LeadsTo next a a := Relation.ReflTransGen.refl

theorem LeadsTo.head (h : next a = some b) (hrest : LeadsTo next b c) : LeadsTo next a c :=
  Relation.ReflTransGen.head h hrest

theorem LeadsTo.invariant {p : α → Prop} (h : LeadsTo next a b) (ha : p a)
    (hstep : ∀ x y, p x → next x = some y → p y) : p b := by
  induction h with
  | refl => exact ha
  | tail _ hlast ih => exact hstep _ _ ih hlast

/-- Pointers that go up, below a bound, run out. -/
theorem exists_end {rank : α → ℕ} {bound : ℕ} {p : α → Prop}
    (hstep : ∀ x y, p x → next x = some y → p y ∧ rank x < rank y ∧ rank y < bound) (ha : p a) :
    ∃ b, LeadsTo next a b ∧ p b ∧ next b = none := by
  induction hroom : bound - rank a using Nat.strongRecOn generalizing a with
  | ind room ih =>
    cases hnext : next a with
    | none => exact ⟨a, leadsTo_refl a, ha, hnext⟩
    | some b =>
      obtain ⟨hb, hlt, hbound⟩ := hstep a b ha hnext
      obtain ⟨c, hleads, hc, hend⟩ := ih (bound - rank b) (by omega) hb rfl
      exact ⟨c, hleads.head hnext, hc, hend⟩

theorem end_unique (hb : LeadsTo next a b) (hc : LeadsTo next a c) (hbend : next b = none)
    (hcend : next c = none) : b = c := by
  have hlast : ∀ {x y : α}, next x = none → LeadsTo next x y → x = y := by
    intro x y hend h
    rcases Relation.ReflTransGen.cases_head h with rfl | ⟨z, hz, -⟩
    · rfl
    · cases hend.symm.trans hz
  have hunique : Relator.RightUnique fun a b => next a = some b :=
    fun x y z hy hz => Option.some.inj (hy.symm.trans hz)
  rcases Relation.ReflTransGen.total_of_right_unique hunique hb hc with h | h
  · exact hlast hbend h
  · exact (hlast hcend h).symm

end TrueFigure.Library
