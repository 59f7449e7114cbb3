import Mathlib.Data.List.Chain
import Mathlib.Order.Lattice

/-!
# Successive windows

Half-open windows over a linear order, each closed where the next one starts, the
last one open. They are ordered and disjoint, and a new window is started by closing
the open one.
-/
namespace TrueFigure.Library

/-- From a start up to, not including, a stop; open where there is none. -/
structure Window (τ : Type) where
  start : τ
  stop : Option τ

variable {τ : Type} [LinearOrder τ]

def Window.Covers (w : Window τ) (t : τ) : Prop := w.start ≤ t ∧ ∀ s ∈ w.stop, t < s

/-- One window is closed where the next one starts. -/
def Window.Meets (w w' : Window τ) : Prop := w.stop = some w'.start ∧ w.start ≤ w'.start

/-- Each window is closed where the next one starts; the last one is open. -/
structure Successive (ws : List (Window τ)) : Prop where
  meets : ws.IsChain Window.Meets
  last : ∀ w ∈ ws.getLast?, w.stop = none

def closeOpen (t : τ) (ws : List (Window τ)) : List (Window τ) :=
  ws.map fun w => if w.stop = none then ⟨w.start, some t⟩ else w

variable {ws : List (Window τ)} {w w' : Window τ} {t : τ}

theorem successive_nil : Successive ([] : List (Window τ)) := by
  constructor
  · exact List.isChain_nil
  · simp

theorem successive_singleton (t : τ) : Successive [⟨t, none⟩] := by
  constructor
  · exact List.isChain_singleton _
  · simp

theorem Successive.tail (h : Successive (w :: ws)) : Successive ws := by
  constructor
  · exact h.meets.tail
  · intro v hv
    refine h.last v ?_
    cases ws with
    | nil => cases hv
    | cons x ws => rwa [List.getLast?_cons_cons]

/-- What comes after a window starts where it stops or later. -/
theorem Successive.stop_le (h : Successive (w :: ws)) (hw' : w' ∈ ws) :
    ∃ s, w.stop = some s ∧ w.start ≤ s ∧ s ≤ w'.start := by
  induction ws generalizing w with
  | nil => cases hw'
  | cons x ws ih =>
    obtain ⟨hmeets, -⟩ := List.isChain_cons_cons.1 h.meets
    rcases List.mem_cons.1 hw' with rfl | hw'
    · exact ⟨w'.start, hmeets.1, hmeets.2, le_refl _⟩
    · obtain ⟨s, -, hxs, hle⟩ := ih h.tail hw'
      exact ⟨x.start, hmeets.1, hmeets.2, hxs.trans hle⟩

theorem Successive.pairwise {r : Window τ → Window τ → Prop} (h : Successive ws)
    (hr : ∀ w w' s, w.stop = some s → w.start ≤ s → s ≤ w'.start → r w w') : ws.Pairwise r := by
  induction ws with
  | nil => exact List.Pairwise.nil
  | cons w ws ih =>
    refine List.pairwise_cons.2 ⟨fun w' hw' => ?_, ih h.tail⟩
    obtain ⟨s, hstop, hle, hle'⟩ := h.stop_le hw'
    exact hr w w' s hstop hle hle'

theorem Successive.ordered (h : Successive ws) : ws.Pairwise fun w w' => w.start ≤ w'.start :=
  h.pairwise fun _ _ _ _ hle hle' => hle.trans hle'

/-- No two windows cover the same instant. -/
theorem Successive.disjoint (h : Successive ws) :
    ws.Pairwise fun w w' => ∀ t, ¬ (w.Covers t ∧ w'.Covers t) := by
  refine h.pairwise fun w w' s hstop _ hle t => ?_
  rintro ⟨hw, hw'⟩
  exact absurd (hw.2 s hstop) (not_lt_of_ge (hle.trans hw'.1))

theorem Successive.open_iff (h : Successive (ws ++ [w])) :
    w.stop = none ∧ ∀ v ∈ ws, v.stop ≠ none := by
  refine ⟨h.last w (by simp), fun v hv hnone => ?_⟩
  have hpairs : (ws ++ [w]).Pairwise fun v _ => v.stop ≠ none :=
    h.pairwise fun v _ s hstop _ _ hopen => by
      cases hopen.symm.trans hstop
  exact (List.pairwise_append.1 hpairs).2.2 v hv w (List.mem_singleton_self w) hnone

theorem Successive.close (h : Successive ws) (ht : ∀ w ∈ ws, w.stop = none → w.start ≤ t) :
    Successive (closeOpen t ws ++ [⟨t, none⟩]) := by
  rcases List.eq_nil_or_concat ws with rfl | ⟨ws, w, rfl⟩
  · exact successive_singleton t
  · rw [List.concat_eq_append] at h ht ⊢
    obtain ⟨hopen, hclosed⟩ := h.open_iff
    have hkeep : closeOpen t ws = ws := by
      refine (List.map_congr_left fun v hv => ?_).trans (List.map_id ws)
      exact if_neg (hclosed v hv)
    have hclose : closeOpen t [w] = [⟨w.start, some t⟩] := by
      rw [closeOpen, List.map_singleton, if_pos hopen]
    have hsplit : closeOpen t (ws ++ [w]) = ws ++ [⟨w.start, some t⟩] := by
      rw [closeOpen, List.map_append, ← closeOpen, ← closeOpen, hkeep, hclose]
    rw [hsplit]
    refine ⟨?_, by simp⟩
    have hle : w.start ≤ t := ht w (by simp) hopen
    rw [List.append_assoc, List.isChain_append]
    obtain ⟨hchain, -, hlast⟩ := List.isChain_append.1 h.meets
    refine ⟨hchain, ?_, ?_⟩
    · exact List.isChain_cons_cons.2 ⟨⟨rfl, hle⟩, List.isChain_singleton _⟩
    · intro v hv x hx
      have hmeets := hlast v hv w (by simp)
      simp only [List.singleton_append, List.head?_cons, Option.mem_def, Option.some.injEq] at hx
      rw [← hx]
      exact hmeets

end TrueFigure.Library
