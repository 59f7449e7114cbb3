import TrueFigure.Library.Transactions
import Mathlib.Algebra.BigOperators.Group.Finset.Piecewise
import Mathlib.Algebra.BigOperators.Group.Multiset.Basic
import Mathlib.Algebra.Order.BigOperators.Group.Finset

/-!
# Maintained aggregates

Sums over the rows of a store, and tables that hold, for every group of a
multiset of facts, the fold of that group. A table stays a fold of its facts
when each new fact is folded into the one row of its group.
-/
namespace TrueFigure.Library

section Tally

variable {κ : Type} [DecidableEq κ] {Row : κ → Type} {M : Type} [AddCommMonoid M]

/-- The sum of a measure over the rows of a store. -/
def tally (g : Sigma Row → M) (s : Store Row) : M := (s.entries.map g).sum

theorem tally_insert_new (g : Sigma Row → M) {s : Store Row} {k : κ} (r : Row k)
    (h : s.lookup k = none) : tally g (s.insert k r) = g ⟨k, r⟩ + tally g s := by
  have hk : k ∉ s.keys := AList.lookup_eq_none.1 h
  rw [tally, AList.entries_insert_of_notMem hk, List.map_cons, List.sum_cons, tally]

theorem tally_erase (g : Sigma Row → M) {s : Store Row} {k : κ} {r : Row k}
    (h : s.lookup k = some r) : tally g s = g ⟨k, r⟩ + tally g (s.erase k) := by
  have hmem : (⟨k, r⟩ : Sigma Row) ∈ s.entries := AList.mem_lookup_iff.1 h
  obtain ⟨b, l₁, l₂, hnot, hs, herase⟩ := List.exists_of_kerase (List.mem_keys_of_mem hmem)
  have hb : b = r := by
    have : (⟨k, b⟩ : Sigma Row) ∈ s.entries := by simp [hs]
    exact s.nodupKeys.eq_of_mk_mem this hmem
  have hrest : (s.erase k).entries = l₁ ++ l₂ := herase
  simp only [tally, hrest, hs, hb, List.map_append, List.map_cons, List.sum_append, List.sum_cons]
  rw [add_left_comm]

theorem tally_insert (g : Sigma Row → M) {s : Store Row} {k : κ} {old : Row k} (r : Row k)
    (h : s.lookup k = some old) :
    g ⟨k, old⟩ + tally g (s.insert k r) = g ⟨k, r⟩ + tally g s := by
  have hinsert : tally g (s.insert k r) = g ⟨k, r⟩ + tally g (s.erase k) := by
    rw [tally, AList.entries_insert, List.map_cons, List.sum_cons]
    rfl
  rw [hinsert, tally_erase g h, add_left_comm]

/-- A sum over the rows is one over any keys that include theirs. -/
theorem tally_eq_sum (g : Sigma Row → M) {s : Store Row} {K : Finset κ}
    (hK : s.keys.toFinset ⊆ K) : tally g s = ∑ k ∈ K, (s.lookup k).elim 0 fun r => g ⟨k, r⟩ := by
  have hvanish : ∀ k ∈ K, k ∉ s.keys.toFinset →
      ((s.lookup k).elim 0 fun r => g ⟨k, r⟩) = 0 := by
    intro k _ hk
    rw [AList.lookup_eq_none.2 fun hmem => hk (List.mem_toFinset.2 hmem)]
    rfl
  rw [← Finset.sum_subset hK hvanish, List.sum_toFinset _ s.keys_nodup, tally, AList.keys,
    List.keys, List.map_map]
  refine congrArg List.sum (List.map_congr_left fun x hx => ?_)
  have hlookup : s.lookup x.1 = some x.2 := AList.mem_lookup_iff.2 hx
  simp [hlookup]

/-- A sum over the rows is one over the groups whose keys include the measured ones. -/
theorem tally_eq_sum_groups {γ : Type} (g : Sigma Row → M) {s : Store Row} {C : Finset γ}
    {key : γ → κ} (hinj : Function.Injective key)
    (hC : ∀ k r, s.lookup k = some r → (∃ c ∈ C, key c = k) ∨ g ⟨k, r⟩ = 0) :
    tally g s = ∑ c ∈ C, (s.lookup (key c)).elim 0 fun r => g ⟨key c, r⟩ := by
  have hvanish : ∀ k ∈ s.keys.toFinset ∪ C.image key, k ∉ C.image key →
      ((s.lookup k).elim 0 fun r => g ⟨k, r⟩) = 0 := by
    intro k _ hk
    cases hrow : s.lookup k with
    | none => rfl
    | some r =>
      rcases hC k r hrow with ⟨c, hc, rfl⟩ | hzero
      · exact absurd (Finset.mem_image_of_mem key hc) hk
      · exact hzero
  rw [tally_eq_sum g (s := s) Finset.subset_union_left,
    ← Finset.sum_subset Finset.subset_union_right hvanish,
    Finset.sum_image fun c _ d _ h => hinj h]

/-- Rows that agree wherever there is something to measure have the same sum. -/
theorem tally_congr (g : Sigma Row → M) {s t : Store Row}
    (h : ∀ k, ((s.lookup k).elim 0 fun r => g ⟨k, r⟩) = (t.lookup k).elim 0 fun r => g ⟨k, r⟩) :
    tally g s = tally g t := by
  rw [tally_eq_sum g (s := s) Finset.subset_union_left,
    tally_eq_sum g (s := t) Finset.subset_union_right]
  exact Finset.sum_congr rfl fun k _ => h k

/-- Rows that are the same wherever there is something to measure have the same sum. -/
theorem tally_congr_keys {g : Sigma Row → M} {s t : Store Row}
    (h : ∀ k, s.lookup k = t.lookup k ∨ ∀ r, g ⟨k, r⟩ = 0) : tally g s = tally g t := by
  apply tally_congr
  intro k
  rcases h k with heq | hzero
  · rw [heq]
  · have helim : ∀ o : Option (Row k), (o.elim 0 fun r => g ⟨k, r⟩) = 0 := by
      intro o
      cases o with
      | none => rfl
      | some r => exact hzero r
    rw [helim, helim]

theorem tally_congr_rows {g g' : Sigma Row → M} {s : Store Row}
    (h : ∀ k r, s.lookup k = some r → g ⟨k, r⟩ = g' ⟨k, r⟩) : tally g s = tally g' s := by
  unfold tally
  apply congrArg List.sum
  apply List.map_congr_left
  intro x hx
  exact h x.1 x.2 (AList.mem_lookup_iff.2 hx)

/-- A sum of naturals grows with the measure of every row. -/
theorem tally_le (g : Sigma Row → ℕ) {s t : Store Row}
    (h : ∀ k r, s.lookup k = some r → g ⟨k, r⟩ ≤ (t.lookup k).elim 0 fun r => g ⟨k, r⟩) :
    tally g s ≤ tally g t := by
  rw [tally_eq_sum g (s := s) Finset.subset_union_left,
    tally_eq_sum g (s := t) Finset.subset_union_right]
  apply Finset.sum_le_sum
  intro k _
  cases hrow : s.lookup k with
  | none => exact Nat.zero_le _
  | some r => exact h k r hrow

omit [DecidableEq κ] in
theorem map_tally {N : Type} [AddCommMonoid N] (φ : M →+ N) (g : Sigma Row → M) (s : Store Row) :
    φ (tally g s) = tally (fun x => φ (g x)) s := by
  rw [tally, map_list_sum, List.map_map]
  rfl

/-- Overwriting a row by one of the same measure changes no sum. -/
theorem tally_insert_same (g : Sigma Row → M) {s : Store Row} {k : κ} {r : Row k}
    (h : ∀ old, s.lookup k = some old → g ⟨k, old⟩ = 0) (hr : g ⟨k, r⟩ = 0) :
    tally g (s.insert k r) = tally g s := by
  cases hk : s.lookup k with
  | none => rw [tally_insert_new g r hk, hr, zero_add]
  | some old => simpa [h old hk, hr] using tally_insert g r hk

/-- A log that keeps every measure it finds changes no sum. -/
theorem tally_view (g : Sigma Row → M) {log : List (Change Row)}
    (h : ∀ c ∈ log, ∀ r, g ⟨c.key, r⟩ = 0) (s : Store Row) : tally g (view log s) = tally g s := by
  induction log generalizing s with
  | nil => rfl
  | cons c log ih =>
    have hc := h c List.mem_cons_self
    rw [view_cons, ih fun d hd => h d (List.mem_cons_of_mem c hd)]
    exact tally_insert_same g (fun _ _ => hc _) (hc _)

theorem mem_tally {E : Type} {g : Sigma Row → Multiset E} {s : Store Row} {e : E} :
    e ∈ tally g s ↔ ∃ k r, s.lookup k = some r ∧ e ∈ g ⟨k, r⟩ := by
  have hsum : ∀ entries : List (Sigma Row),
      e ∈ (entries.map g).sum ↔ ∃ x ∈ entries, e ∈ g x := by
    intro entries
    induction entries with
    | nil => simp
    | cons x entries ih => simp [ih]
  rw [tally, hsum]
  constructor
  · rintro ⟨⟨k, r⟩, hx, he⟩
    exact ⟨k, r, AList.mem_lookup_iff.2 hx, he⟩
  · rintro ⟨k, r, hk, he⟩
    exact ⟨⟨k, r⟩, AList.mem_lookup_iff.1 hk, he⟩

end Tally

section Selection

variable {κ β : Type} [DecidableEq κ] {Row : κ → Type}

/-- What a query selects from the rows does not see a row it does not select. -/
theorem filterMap_insert {f : Sigma Row → Option β} {s : Store Row} {k : κ} (r : Row k)
    (hk : ∀ r, f ⟨k, r⟩ = none) : (s.insert k r).entries.filterMap f = s.entries.filterMap f := by
  rw [AList.entries_insert, List.filterMap_cons_none (hk r)]
  by_cases hmem : k ∈ s.entries.keys
  · obtain ⟨b, l₁, l₂, -, hs, herase⟩ := List.exists_of_kerase hmem
    rw [herase, hs, List.filterMap_append, List.filterMap_append, List.filterMap_cons_none (hk b)]
  · rw [List.kerase_of_notMem_keys hmem]

theorem filterMap_view {f : Sigma Row → Option β} {log : List (Change Row)}
    (h : ∀ c ∈ log, ∀ r, f ⟨c.key, r⟩ = none) (s : Store Row) :
    (view log s).entries.filterMap f = s.entries.filterMap f := by
  induction log generalizing s with
  | nil => rfl
  | cons c log ih =>
    rw [view_cons, ih fun d hd => h d (List.mem_cons_of_mem c hd)]
    exact filterMap_insert _ (h c List.mem_cons_self)

omit [DecidableEq κ] in
theorem nodup_filterMap_keys {f : Sigma Row → Option β} {key : β → κ} {s : Store Row}
    (h : ∀ x ∈ s.entries, ∀ b, f x = some b → key b = x.1) :
    ((s.entries.filterMap f).map key).Nodup := by
  have hsub : ∀ entries : List (Sigma Row), (∀ x ∈ entries, ∀ b, f x = some b → key b = x.1) →
      ((entries.filterMap f).map key).Sublist entries.keys := by
    intro entries hentries
    induction entries with
    | nil => exact List.Sublist.refl _
    | cons x entries ih =>
      obtain ⟨hx, hrest⟩ := List.forall_mem_cons.1 hentries
      cases hf : f x with
      | none =>
        rw [List.filterMap_cons_none hf]
        exact (ih hrest).cons _
      | some b =>
        rw [List.filterMap_cons_some hf, List.map_cons, hx b hf]
        exact (ih hrest).cons_cons _
  exact List.Nodup.sublist (hsub s.entries h) s.nodupKeys

end Selection

section Grouped

variable {E γ ρ : Type} [DecidableEq γ]

/-- `table` holds for every group of `facts` its fold. Facts without a group are
in none. -/
def Grouped (group : E → Option γ) (fold : γ → Multiset E → Option ρ → Prop)
    (facts : Multiset E) (table : γ → Option ρ) : Prop :=
  ∀ c, fold c (facts.filter fun e => group e = some c) (table c)

variable {group : E → Option γ} {fold : γ → Multiset E → Option ρ → Prop} {facts : Multiset E}
  {table table' : γ → Option ρ}

theorem Grouped.congr (h : Grouped group fold facts table) (heq : ∀ c, table' c = table c) :
    Grouped group fold facts table' := by
  intro c
  rw [heq]
  exact h c

/-- A fact without a group leaves the table a fold. -/
theorem Grouped.skip (h : Grouped group fold facts table) {e : E} (he : group e = none) :
    Grouped group fold (e ::ₘ facts) table := by
  intro c
  rw [Multiset.filter_cons_of_neg _ (by simp [he])]
  exact h c

theorem Grouped.cons (h : Grouped group fold facts table) {e : E} {c : γ} (he : group e = some c)
    (hrow : ∀ g, fold c g (table c) → fold c (e ::ₘ g) (table' c))
    (hother : ∀ d, d ≠ c → table' d = table d) : Grouped group fold (e ::ₘ facts) table' := by
  intro d
  by_cases hd : d = c
  · subst hd
    rw [Multiset.filter_cons_of_pos (p := fun e => group e = some d) _ he]
    exact hrow _ (h d)
  · rw [Multiset.filter_cons_of_neg _ (by simpa [he] using fun hc => hd hc.symm), hother d hd]
    exact h d

theorem sum_countP_groups {C : Finset γ} (hC : ∀ e ∈ facts, ∃ c ∈ C, group e = some c)
    (p : E → Bool) :
    ∑ c ∈ C, (facts.filter fun e => group e = some c).countP (fun e => p e) =
      facts.countP fun e => p e := by
  induction facts using Multiset.induction with
  | empty => exact Finset.sum_eq_zero fun c _ => rfl
  | cons e facts ih =>
    have hrest := ih fun e' he' => hC e' (Multiset.mem_cons_of_mem he')
    obtain ⟨c, hc, he⟩ := hC e (Multiset.mem_cons_self e facts)
    have hsplit : ∀ d ∈ C, ((e ::ₘ facts).filter fun e => group e = some d).countP (fun e => p e) =
        (facts.filter fun e => group e = some d).countP (fun e => p e) +
          if d = c then (p e).toNat else 0 := by
      intro d _
      by_cases hd : d = c
      · subst hd
        rw [Multiset.filter_cons_of_pos (p := fun e => group e = some d) _ he, if_pos rfl]
        cases hp : p e <;> simp [hp]
      · rw [Multiset.filter_cons_of_neg _ (by simpa [he] using fun h => hd h.symm), if_neg hd,
          add_zero]
    rw [Finset.sum_congr rfl hsplit, Finset.sum_add_distrib, hrest, Finset.sum_ite_eq', if_pos hc]
    cases hp : p e <;> simp [hp]

end Grouped

end TrueFigure.Library
