import Mathlib.Data.List.Basic

/-!
# Fields joined by a separator

Fields joined without escaping, as `sep.join(fields)` does. The joined text
determines the pieces between separators, and the fields are determined by the
pieces together with the number of pieces each field holds.
-/
namespace TrueFigure.Library

variable {α : Type} [DecidableEq α]

/-- `sep.join(fields)` for a one-character separator. -/
def joined (sep : α) (fields : List (List α)) : List α := [sep].intercalate fields

/-- What lies between separators, over all fields. -/
def pieces (sep : α) (fields : List (List α)) : List (List α) :=
  fields.flatMap fun f => f.splitOn sep

/-- How many pieces each field holds: one more than its separators. -/
def profile (sep : α) (fields : List (List α)) : List ℕ :=
  fields.map fun f => (f.splitOn sep).length

theorem splitOn_joined (sep : α) {fields : List (List α)} (h : fields ≠ []) :
    (joined sep fields).splitOn sep = pieces sep fields := by
  induction fields with
  | nil => exact absurd rfl h
  | cons f fields ih =>
    rcases eq_or_ne fields [] with rfl | hne
    · simp [joined, pieces]
    · have hstep : joined sep (f :: fields) = f ++ sep :: joined sep fields := by
        simp [joined, List.intercalate_cons_of_ne_nil hne]
      rw [hstep, List.splitOn_append_cons_self, ih hne]
      simp [pieces]

omit [DecidableEq α] in
theorem mem_joined {sep c : α} {fields : List (List α)} (h : c ∈ joined sep fields) :
    c = sep ∨ ∃ f ∈ fields, c ∈ f := by
  induction fields with
  | nil => cases h
  | cons f fields ih =>
    rcases eq_or_ne fields [] with rfl | hne
    · exact .inr ⟨f, List.mem_cons_self, by simpa [joined] using h⟩
    · rw [joined, List.intercalate_cons_of_ne_nil hne, List.append_assoc, List.mem_append,
        List.mem_append, List.mem_singleton] at h
      rcases h with hmem | rfl | hrest
      · exact .inr ⟨f, List.mem_cons_self, hmem⟩
      · exact .inl rfl
      · rcases ih hrest with hsep | ⟨g, hg, hmem⟩
        · exact .inl hsep
        · exact .inr ⟨g, List.mem_cons_of_mem f hg, hmem⟩

theorem joined_eq_iff (sep : α) {xs ys : List (List α)} (hx : xs ≠ []) (hy : ys ≠ []) :
    joined sep xs = joined sep ys ↔ pieces sep xs = pieces sep ys := by
  constructor
  · intro h
    rw [← splitOn_joined sep hx, ← splitOn_joined sep hy, h]
  · intro h
    rw [← splitOn_joined sep hx, ← splitOn_joined sep hy] at h
    calc joined sep xs
      _ = [sep].intercalate ((joined sep xs).splitOn sep) := (List.intercalate_splitOn sep).symm
      _ = [sep].intercalate ((joined sep ys).splitOn sep) := by rw [h]
      _ = joined sep ys := List.intercalate_splitOn sep

theorem pieces_of_not_mem {sep : α} {fields : List (List α)} (h : ∀ f ∈ fields, sep ∉ f) :
    pieces sep fields = fields := by
  induction fields with
  | nil => rfl
  | cons f fields ih =>
    have hf : f.splitOn sep = [f] := List.splitOn_eq_singleton (h f List.mem_cons_self)
    simp only [pieces, List.flatMap_cons, hf, List.singleton_append] at ih ⊢
    rw [ih fun g hg => h g (List.mem_cons_of_mem f hg)]

/-- Fields without separators are determined by the joined text. -/
theorem joined_injOn {sep : α} {xs ys : List (List α)} (hx : xs ≠ []) (hy : ys ≠ [])
    (hfree : ∀ f ∈ xs, sep ∉ f) (hfree' : ∀ f ∈ ys, sep ∉ f)
    (h : joined sep xs = joined sep ys) : xs = ys := by
  have hpieces := (joined_eq_iff sep hx hy).1 h
  rwa [pieces_of_not_mem hfree, pieces_of_not_mem hfree'] at hpieces

theorem splitOn_injective (sep : α) : Function.Injective fun f : List α => f.splitOn sep := by
  intro f g h
  calc f
    _ = [sep].intercalate (f.splitOn sep) := (List.intercalate_splitOn sep).symm
    _ = [sep].intercalate (g.splitOn sep) := congrArg _ h
    _ = g := List.intercalate_splitOn sep

theorem eq_iff_pieces_profile (sep : α) (xs ys : List (List α)) :
    xs = ys ↔ pieces sep xs = pieces sep ys ∧ profile sep xs = profile sep ys := by
  constructor
  · rintro rfl
    exact ⟨rfl, rfl⟩
  · rintro ⟨hpieces, hprofile⟩
    induction xs generalizing ys with
    | nil => exact (List.map_eq_nil_iff.1 hprofile.symm).symm
    | cons x xs ih =>
      cases ys with
      | nil => simp [profile] at hprofile
      | cons y ys =>
        simp only [profile, List.map_cons, List.cons.injEq] at hprofile
        simp only [pieces, List.flatMap_cons] at hpieces
        obtain ⟨hhead, htail⟩ := List.append_inj hpieces hprofile.1
        rw [splitOn_injective sep hhead, ih ys htail hprofile.2]

end TrueFigure.Library
