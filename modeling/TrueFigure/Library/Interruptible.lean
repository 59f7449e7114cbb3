import Mathlib.Data.List.Basic

/-!
# Programs that may be cut short

A program over a state, with the states it passes through. It may be cut before
each of its steps, so that what holds in every state on the way is stated beside
what holds where it ends.
-/
namespace TrueFigure.Library

variable {σ ε α β ι : Type}

/-- The states before each step of a program, how it ends and in which state. -/
structure Course (σ ε α : Type) where
  visited : List σ
  outcome : Except ε α
  final : σ

/-- Every state at which the program may be cut. -/
def Course.moments (c : Course σ ε α) : List σ := c.visited ++ [c.final]

/-- A program that may be cut before each of its steps. -/
def Interruptible (σ ε α : Type) : Type := σ → Course σ ε α

namespace Interruptible

/-- The course of a program from a state. -/
def run (m : Interruptible σ ε α) (s : σ) : Course σ ε α := m s

def step (f : σ → σ) : Interruptible σ ε Unit := fun s => ⟨[s], .ok (), f s⟩

/-- The state, without a step. -/
def look : Interruptible σ ε σ := fun s => ⟨[], .ok s, s⟩

def raise (e : ε) : Interruptible σ ε α := fun s => ⟨[], .error e, s⟩

instance : Monad (Interruptible σ ε) where
  pure a := fun s => ⟨[], .ok a, s⟩
  bind m f := fun s =>
    match (m s).outcome with
    | .ok a =>
      let rest := f a (m s).final
      ⟨(m s).visited ++ rest.visited, rest.outcome, rest.final⟩
    | .error e => ⟨(m s).visited, .error e, (m s).final⟩

section Finals

variable {m : Interruptible σ ε α} {f : α → Interruptible σ ε β} {s : σ}

theorem final_bind_ok {a : α} (h : (m.run s).outcome = .ok a) :
    ((m >>= f).run s).final = ((f a).run (m.run s).final).final := by
  simp only [run] at h ⊢
  simp only [Bind.bind, h]

theorem outcome_bind_ok {a : α} (h : (m.run s).outcome = .ok a) :
    ((m >>= f).run s).outcome = ((f a).run (m.run s).final).outcome := by
  simp only [run] at h ⊢
  simp only [Bind.bind, h]

theorem final_bind_error {e : ε} (h : (m.run s).outcome = .error e) :
    ((m >>= f).run s).final = (m.run s).final := by
  simp only [run] at h ⊢
  simp only [Bind.bind, h]

theorem forM_cons (x : ι) (xs : List ι) (body : ι → Interruptible σ ε Unit) :
    (x :: xs).forM body = body x >>= fun _ => xs.forM body := rfl

theorem forM_step_keeps {P : σ → Prop} {g : ι → σ → σ} (h : ∀ x s, P s → P (g x s))
    (xs : List ι) (hs : P s) :
    ((xs.forM fun x => (step (g x) : Interruptible σ ε Unit)).run s).outcome = .ok () ∧
      P ((xs.forM fun x => (step (g x) : Interruptible σ ε Unit)).run s).final := by
  induction xs generalizing s with
  | nil => exact ⟨rfl, hs⟩
  | cons x xs ih =>
    have hfirst : ((step (g x) : Interruptible σ ε Unit).run s).outcome = .ok () := rfl
    rw [forM_cons, outcome_bind_ok hfirst, final_bind_ok hfirst]
    exact ih (h x s hs)

end Finals

/-- From a state with `P`, every state passed through has `I`, an answer leaves
a state with `Q` and an error one with `E`. -/
structure Meets (I P : σ → Prop) (m : Interruptible σ ε α) (Q : α → σ → Prop)
    (E : ε → σ → Prop) : Prop where
  passing : ∀ s, P s → ∀ t ∈ (m.run s).visited, I t
  returning : ∀ s a, P s → (m.run s).outcome = .ok a → Q a (m.run s).final
  raising : ∀ s e, P s → (m.run s).outcome = .error e → E e (m.run s).final

variable {I P P' : σ → Prop} {m : Interruptible σ ε α} {f : α → Interruptible σ ε β}
  {Q Q' : α → σ → Prop} {R : β → σ → Prop} {E E' : ε → σ → Prop}

theorem Meets.pure {a : α} (h : ∀ s, P s → Q a s) :
    Meets I P (Pure.pure a : Interruptible σ ε α) Q E where
  passing _ _ _ ht := nomatch ht
  returning s b hs hb := by
    cases hb
    exact h s hs
  raising _ _ _ he := nomatch he

theorem Meets.raise {e : ε} (h : ∀ s, P s → E e s) :
    Meets I P (raise e : Interruptible σ ε α) Q E where
  passing _ _ _ ht := nomatch ht
  returning _ _ _ ha := nomatch ha
  raising s e hs he := by
    cases he
    exact h s hs

theorem Meets.step {g : σ → σ} {Q : Unit → σ → Prop} (hpass : ∀ s, P s → I s)
    (h : ∀ s, P s → Q () (g s)) : Meets I P (step g) Q E where
  passing s hs t ht := by
    cases List.mem_singleton.1 ht
    exact hpass s hs
  returning s _ hs _ := h s hs
  raising _ _ _ he := nomatch he

/-- What the state shows may be used in the rest. -/
theorem Meets.look {f : σ → Interruptible σ ε β}
    (h : ∀ s, P s → Meets I (fun t => t = s) (f s) R E) : Meets I P (look >>= f) R E where
  passing s hs t ht := (h s hs).passing s rfl t ht
  returning s a hs ha := (h s hs).returning s a rfl ha
  raising s e hs he := (h s hs).raising s e rfl he

theorem Meets.bind (hm : Meets I P m Q E) (hf : ∀ a, Meets I (Q a) (f a) R E) :
    Meets I P (m >>= f) R E := by
  have hok : ∀ s a, (m.run s).outcome = .ok a → (m >>= f).run s =
      ⟨(m.run s).visited ++ ((f a).run (m.run s).final).visited, ((f a).run (m.run s).final).outcome,
        ((f a).run (m.run s).final).final⟩ := by
    intro s a ha
    simp only [run] at ha ⊢
    simp only [Bind.bind, ha]
  have herror : ∀ s e, (m.run s).outcome = .error e →
      (m >>= f).run s = ⟨(m.run s).visited, .error e, (m.run s).final⟩ := by
    intro s e he
    simp only [run] at he ⊢
    simp only [Bind.bind, he]
  constructor
  · intro s hs t ht
    cases ha : (m.run s).outcome with
    | ok a =>
      rw [hok s a ha] at ht
      rcases List.mem_append.1 ht with ht | ht
      · exact hm.passing s hs t ht
      · exact (hf a).passing _ (hm.returning s a hs ha) t ht
    | error e =>
      rw [herror s e ha] at ht
      exact hm.passing s hs t ht
  · intro s b hs hb
    cases ha : (m.run s).outcome with
    | ok a =>
      rw [hok s a ha] at hb ⊢
      exact (hf a).returning _ b (hm.returning s a hs ha) hb
    | error e =>
      rw [herror s e ha] at hb
      cases hb
  · intro s e hs he
    cases ha : (m.run s).outcome with
    | ok a =>
      rw [hok s a ha] at he ⊢
      exact (hf a).raising _ e (hm.returning s a hs ha) he
    | error e' =>
      rw [herror s e' ha] at he ⊢
      cases he
      exact hm.raising s e hs ha

theorem Meets.mono (h : Meets I P m Q E) (hP : ∀ s, P' s → P s)
    (hQ : ∀ a s, Q a s → Q' a s) (hE : ∀ e s, E e s → E' e s) : Meets I P' m Q' E' where
  passing s hs := h.passing s (hP s hs)
  returning s a hs ha := hQ a _ (h.returning s a (hP s hs) ha)
  raising s e hs he := hE e _ (h.raising s e (hP s hs) he)

theorem Meets.moments (h : Meets I P m Q E) (hQ : ∀ a s, Q a s → I s) (hE : ∀ e s, E e s → I s)
    {s t : σ} (hs : P s) (ht : t ∈ (m.run s).moments) : I t := by
  rcases List.mem_append.1 ht with ht | ht
  · exact h.passing s hs t ht
  · cases List.mem_singleton.1 ht
    cases hout : (m.run s).outcome with
    | ok a => exact hQ a _ (h.returning s a hs hout)
    | error e => exact hE e _ (h.raising s e hs hout)

/-- What does not depend on the state may be used in the program. -/
theorem Meets.lift {φ : Prop} (h : φ → Meets I P m Q E) : Meets I (fun s => φ ∧ P s) m Q E where
  passing s hs := (h hs.1).passing s hs.2
  returning s a hs := (h hs.1).returning s a hs.2
  raising s e hs := (h hs.1).raising s e hs.2

/-- The rule for loops over a list: `J k` holds once `k` elements are dealt with. -/
theorem Meets.forM {xs : List ι} {body : ι → Interruptible σ ε Unit} {J : ℕ → σ → Prop}
    (h : ∀ k x, xs[k]? = some x → Meets I (J k) (body x) (fun _ => J (k + 1)) E) :
    Meets I (J 0) (xs.forM body) (fun _ => J xs.length) E := by
  induction xs generalizing J with
  | nil => exact .pure fun _ hs => hs
  | cons x xs ih =>
    have htail := @ih (fun k => J (k + 1)) fun k y hy => h (k + 1) y (by simpa using hy)
    exact Meets.bind (h 0 x rfl) fun _ => htail

end Interruptible

end TrueFigure.Library
