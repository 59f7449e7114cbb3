import Mathlib.Data.List.Sort

/-!
# The newest row of each key

Rows with a key and a version. A query keeps the newest row of every key, in some order, or
asks for the newest row of one key; rows are added and never changed.
-/
namespace TrueFigure.Library

/-! ### Newest rows -/

section Versions

variable {α κ : Type} (key : α → κ) (version : α → ℕ)

/-- No two rows have the same key and the same version. -/
def Versioned (rows : List α) : Prop := (rows.map fun a => (key a, version a)).Nodup

variable {key version} {rows : List α} {a b : α}

theorem Versioned.eq (h : Versioned key version rows) (ha : a ∈ rows) (hb : b ∈ rows)
    (hkey : key a = key b) (hversion : version a = version b) : a = b :=
  List.inj_on_of_nodup_map h ha hb (Prod.ext hkey hversion)

theorem Versioned.filter (h : Versioned key version rows) (p : α → Bool) :
    Versioned key version (rows.filter p) :=
  h.sublist (List.filter_sublist.map _)

end Versions

section Newest

variable {α κ : Type} [DecidableEq κ] (key : α → κ) (version : α → ℕ)

/-- `SELECT DISTINCT ON (key) … ORDER BY key, version DESC`, before it is put in order. -/
def newest (rows : List α) : List α :=
  rows.filter fun a => rows.all fun b => decide (key b = key a → version b ≤ version a)

/-- `SELECT … WHERE key=… ORDER BY version DESC LIMIT 1`. -/
def newestAt (rows : List α) (k : κ) : Option α :=
  ((rows.filter fun a => key a = k).insertionSort fun a b => version b ≤ version a).head?

variable {key version} {rows rows' : List α} {a b : α} {k : κ}

theorem mem_newest : a ∈ newest key version rows ↔
    a ∈ rows ∧ ∀ b ∈ rows, key b = key a → version b ≤ version a := by
  simp only [newest, List.mem_filter, List.all_eq_true, decide_eq_true_eq]

theorem nodup_newest (h : Versioned key version rows) :
    ((newest key version rows).map key).Nodup := by
  have hnodup : (newest key version rows).Nodup := (List.Nodup.of_map _ h).filter _
  apply hnodup.map_on
  intro a ha b hb hkey
  obtain ⟨ha, hmax⟩ := mem_newest.1 ha
  obtain ⟨hb, hmax'⟩ := mem_newest.1 hb
  exact h.eq ha hb hkey (le_antisymm (hmax' a ha hkey) (hmax b hb hkey.symm))

/-- The newest row of a key is found by either query. -/
theorem newestAt_eq_some (h : Versioned key version rows) :
    newestAt key version rows k = some a ↔ a ∈ newest key version rows ∧ key a = k := by
  have hsorted := List.pairwise_insertionSort (fun a b : α => version b ≤ version a)
    (rows.filter fun a => key a = k)
  have hmem : ∀ b, b ∈ (rows.filter fun a => key a = k).insertionSort
      (fun a b => version b ≤ version a) ↔ b ∈ rows ∧ key b = k := by
    intro b
    rw [List.mem_insertionSort, List.mem_filter, decide_eq_true_eq]
  unfold newestAt
  revert hsorted hmem
  generalize (rows.filter fun a => key a = k).insertionSort
    (fun a b => version b ≤ version a) = sorted
  intro hsorted hmem
  cases sorted with
  | nil =>
    constructor
    · intro hnone
      cases hnone
    · rintro ⟨ha, hkey⟩
      exact absurd ((hmem a).2 ⟨(mem_newest.1 ha).1, hkey⟩) List.not_mem_nil
  | cons c sorted =>
    obtain ⟨hc, hkeyc⟩ := (hmem c).1 List.mem_cons_self
    have hmax : ∀ b ∈ rows, key b = k → version b ≤ version c := by
      intro b hb hkey
      rcases List.mem_cons.1 ((hmem b).2 ⟨hb, hkey⟩) with rfl | hrest
      · exact le_rfl
      · exact (List.pairwise_cons.1 hsorted).1 b hrest
    constructor
    · intro hhead
      cases hhead
      exact ⟨mem_newest.2 ⟨hc, fun b hb hkey => hmax b hb (hkey.trans hkeyc)⟩, hkeyc⟩
    · rintro ⟨ha, rfl⟩
      obtain ⟨ha, hmaxa⟩ := mem_newest.1 ha
      rw [List.head?_cons, h.eq ha hc hkeyc.symm
        (le_antisymm (hmax a ha rfl) (hmaxa c hc hkeyc))]

theorem newestAt_mem (h : newestAt key version rows k = some a) : a ∈ rows := by
  have hmem := List.mem_of_mem_head? h
  rw [List.mem_insertionSort] at hmem
  exact (List.mem_filter.1 hmem).1

theorem newestAt_eq_none : newestAt key version rows k = none ↔ ∀ a ∈ rows, key a ≠ k := by
  unfold newestAt
  rw [List.head?_eq_none_iff, ← List.length_eq_zero_iff, List.length_insertionSort,
    List.length_eq_zero_iff, List.filter_eq_nil_iff]
  simp

/-- A condition on the key can be asked before or after. -/
theorem newest_filter {p : α → Bool}
    (hp : ∀ a ∈ rows, ∀ b ∈ rows, key a = key b → p a = p b) :
    newest key version (rows.filter p) = (newest key version rows).filter p := by
  unfold newest
  rw [List.filter_filter, List.filter_filter]
  apply List.filter_congr
  intro a ha
  by_cases hpa : p a = true
  · rw [Bool.eq_iff_iff]
    simp only [List.all_eq_true, List.mem_filter, decide_eq_true_eq, Bool.and_eq_true, hpa,
      and_true, and_imp, true_and]
    constructor
    · intro hall b hb hkey
      exact hall b hb ((hp b hb a ha hkey).trans hpa) hkey
    · intro hall b hb _ hkey
      exact hall b hb hkey
  · simp [hpa]

/-- The columns a query leaves out do not matter to it. -/
theorem map_newest {β : Type} {g : α → β} {key' : β → κ} {version' : β → ℕ}
    (hkey : ∀ a, key' (g a) = key a) (hversion : ∀ a, version' (g a) = version a) :
    (newest key version rows).map g = newest key' version' (rows.map g) := by
  unfold newest
  rw [List.filter_map]
  congr 1
  apply List.filter_congr
  intro a _
  rw [Function.comp_apply, List.all_map]
  congr 1
  funext b
  rw [Function.comp_apply, hkey, hkey, hversion, hversion]

/-- Where rows are added the newest row of a key is replaced by a newer one or stays. -/
theorem newestAt_extend (h' : Versioned key version rows') (hsub : rows ⊆ rows')
    (h : Versioned key version rows) (ha : newestAt key version rows k = some a) :
    ∃ b, newestAt key version rows' k = some b ∧ version a ≤ version b ∧
      (version b = version a → b = a) := by
  obtain ⟨hmem, hkey⟩ := (newestAt_eq_some h).1 ha
  have hin : a ∈ rows' := hsub (mem_newest.1 hmem).1
  cases hfound : newestAt key version rows' k with
  | none => exact absurd hkey (newestAt_eq_none.1 hfound a hin)
  | some b =>
    obtain ⟨hb, hkeyb⟩ := (newestAt_eq_some h').1 hfound
    obtain ⟨hinb, hmax⟩ := mem_newest.1 hb
    exact ⟨b, rfl, hmax a hin (hkey.trans hkeyb.symm),
      fun hversion => h'.eq hinb hin (hkeyb.trans hkey.symm) hversion⟩

end Newest

/-! ### In the order of their keys -/

section Ordered

variable {α κ : Type} {key : α → κ} {le : κ → κ → Bool} {xs : List α}

/-- A total order, as a sort compares by it. -/
structure TotalOrder (le : κ → κ → Bool) : Prop where
  trans : ∀ {a b c}, le a b = true → le b c = true → le a c = true
  total : ∀ a b, (le a b || le b a) = true
  antisymm : ∀ {a b}, le a b = true → le b a = true → a = b

theorem TotalOrder.pairwise (h : TotalOrder le) (xs : List α) :
    (xs.mergeSort fun a b => le (key a) (key b)).Pairwise fun a b => le (key a) (key b) = true := by
  apply List.pairwise_mergeSort
  · intro a b c
    exact h.trans
  · intro a b
    exact h.total (key a) (key b)

theorem TotalOrder.mergeSort_filter (h : TotalOrder le) (hnodup : (xs.map key).Nodup)
    (p : α → Bool) : ((xs.filter p).mergeSort fun a b => le (key a) (key b)) =
      (xs.mergeSort fun a b => le (key a) (key b)).filter p := by
  have hperm : ((xs.filter p).mergeSort fun a b => le (key a) (key b)).Perm
      ((xs.mergeSort fun a b => le (key a) (key b)).filter p) :=
    (List.mergeSort_perm _ _).trans ((List.mergeSort_perm _ _).symm.filter p)
  apply hperm.eq_of_pairwise
  · intro a b ha hb hab hba
    have hin : ∀ c, c ∈ ((xs.filter p).mergeSort fun a b => le (key a) (key b)) → c ∈ xs :=
      fun c hc => (List.mem_filter.1 (List.mem_mergeSort.1 hc)).1
    exact List.inj_on_of_nodup_map hnodup (hin a ha) (hin b (hperm.mem_iff.2 hb))
      (h.antisymm hab hba)
  · exact h.pairwise _
  · exact (h.pairwise xs).filter _

end Ordered

end TrueFigure.Library
