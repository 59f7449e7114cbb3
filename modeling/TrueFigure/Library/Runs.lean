import Mathlib.Data.List.Basic
import Mathlib.Data.List.Induction
import Mathlib.Logic.Relation

/-!
# Runs of labelled transition systems

A run with the steps it takes. What holds at its start and is preserved by every
step holds before each step and at the end.
-/
namespace TrueFigure.Library

variable {σ ℓ : Type}

/-- A run from one state to another, with every step's state and label. -/
inductive Run (step : σ → ℓ → σ → Prop) : σ → List (σ × ℓ) → σ → Prop
  | refl (s : σ) : Run step s [] s
  | head {s t u : σ} {l : ℓ} {trace : List (σ × ℓ)} (h : step s l t) (hrun : Run step t trace u) :
      Run step s ((s, l) :: trace) u

namespace Run

variable {step step' : σ → ℓ → σ → Prop} {s t u : σ} {trace trace' : List (σ × ℓ)}

theorem single {l : ℓ} (h : step s l t) : Run step s [(s, l)] t := .head h (.refl t)

theorem append (h : Run step s trace t) (h' : Run step t trace' u) :
    Run step s (trace ++ trace') u := by
  induction h with
  | refl => exact h'
  | head hstep _ ih => exact .head hstep (ih h')

theorem split (h : Run step s (trace ++ trace') t) :
    ∃ u, Run step s trace u ∧ Run step u trace' t := by
  induction trace generalizing s with
  | nil => exact ⟨s, .refl s, h⟩
  | cons x trace ih =>
    cases h with
    | head hstep hrest =>
      obtain ⟨u, hfirst, hsecond⟩ := ih hrest
      exact ⟨u, .head hstep hfirst, hsecond⟩

theorem snocInduction {motive : List (σ × ℓ) → σ → Prop} (refl : motive [] s)
    (snoc : ∀ {trace t l u}, Run step s trace t → step t l u → motive trace t →
      motive (trace ++ [(t, l)]) u)
    (h : Run step s trace t) : motive trace t := by
  induction trace using List.reverseRecOn generalizing t with
  | nil =>
    cases h
    exact refl
  | append_singleton trace x ih =>
    obtain ⟨u, hfirst, hlast⟩ := h.split
    cases hlast with
    | head hstep hrest =>
      cases hrest
      exact snoc hfirst hstep (ih hfirst)

theorem mono (hstep : ∀ s l t, step s l t → step' s l t) (h : Run step s trace t) :
    Run step' s trace t := by
  induction h with
  | refl => exact .refl _
  | head h _ ih => exact .head (hstep _ _ _ h) ih

/-- The invariant rule. -/
theorem invariant {I : σ → Prop} (h : Run step s trace t) (hs : I s)
    (hstep : ∀ s l t, I s → step s l t → I t) : I t ∧ ∀ x ∈ trace, I x.1 := by
  induction h with
  | refl => exact ⟨hs, by simp⟩
  | head h _ ih =>
    obtain ⟨ht, htrace⟩ := ih (hstep _ _ _ hs h)
    exact ⟨ht, List.forall_mem_cons.2 ⟨hs, htrace⟩⟩

theorem reflTransGen (h : Run step s trace t) :
    Relation.ReflTransGen (fun s t => ∃ l, step s l t) s t := by
  induction h with
  | refl => exact .refl
  | head h _ ih => exact .head ⟨_, h⟩ ih

/-- A run whose steps all meet a condition is a run of the steps that meet it. -/
theorem restrict {p : σ → ℓ → Prop} (h : Run step s trace t) (hp : ∀ x ∈ trace, p x.1 x.2) :
    Run (fun s l t => step s l t ∧ p s l) s trace t := by
  induction h with
  | refl => exact .refl _
  | head h _ ih =>
    obtain ⟨hfirst, hrest⟩ := List.forall_mem_cons.1 hp
    exact .head ⟨h, hfirst⟩ (ih hrest)

theorem step_of_mem (h : Run step s trace t) {x : σ × ℓ} (hx : x ∈ trace) :
    ∃ u, step x.1 x.2 u := by
  induction h with
  | refl => cases hx
  | head h _ ih =>
    rcases List.mem_cons.1 hx with rfl | hx
    · exact ⟨_, h⟩
    · exact ih hx

theorem holds_after {I : σ → Prop} (h : Run step s trace t) (ht : I t)
    (htrace : ∀ x ∈ trace, I x.1) {x : σ × ℓ} (hx : x ∈ trace) : ∃ u, step x.1 x.2 u ∧ I u := by
  induction h with
  | refl => cases hx
  | @head s u t l trace h hrun ih =>
    obtain ⟨hs, hrest⟩ := List.forall_mem_cons.1 htrace
    rcases List.mem_cons.1 hx with rfl | hx
    · refine ⟨u, h, ?_⟩
      cases hrun with
      | refl => exact ht
      | head => exact hrest _ List.mem_cons_self
    · exact ih ht hrest hx

end Run

end TrueFigure.Library
