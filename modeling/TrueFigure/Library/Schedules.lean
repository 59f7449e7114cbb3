import Mathlib.Data.Fintype.Basic
import TrueFigure.Library.Transactions

/-!
# Replaying a schedule

Without faults a step is determined by the process that takes it, except where a
claim chooses its row. So a schedule without claims can be replayed, and what it
comes to is reachable.
-/
namespace TrueFigure.Library

variable {κ : Type} [DecidableEq κ] {Row : κ → Type} {ε α ω ι : Type} [DecidableEq ι] [Fintype ι]

namespace World

instance (w : World ι Row ε α ω) (i : ι) (k : κ) : Decidable (w.Free i k) :=
  inferInstanceAs (Decidable (∀ j, j ≠ i → k ∉ (w.stations j).locks))

/-- The step of this process, where it can take one that is not a claim. -/
def advance (w : World ι Row ε α ω) (i : ι) : Option (World ι Row ε α ω) :=
  match w.stations i with
  | .resting (.done _) => none
  | .resting (.txn body next) => some (w.move i (.inside [] body next))
  | .inside log (.pure a) next =>
    some (({ w with committed := view log w.committed } : World ι Row ε α ω).move i
      (.resting (next (.ok a))))
  | .inside _ (.throw e) next => some (w.move i (.resting (next (.error e))))
  | .inside log (.read f) next => some (w.move i (.inside log (f (view log w.committed)) next))
  | .inside log (.fresh f) next =>
    some (({ w with sequence := w.sequence + 1 } : World ι Row ε α ω).move i
      (.inside log (f w.sequence) next))
  | .inside log (.write k update f) next =>
    if w.Free i k then
      match update ((view log w.committed).lookup k) with
      | .ok row =>
        some (w.move i
          (.inside (log ++ [⟨k, (view log w.committed).lookup k, row⟩]) (f row) next))
      | .error e => some (w.move i (.resting (next (.error e))))
    else none
  | .inside _ (.claim _ _) _ => none

/-- The steps of these processes, one after the other. -/
def follow (w : World ι Row ε α ω) : List ι → Option (World ι Row ε α ω)
  | [] => some w
  | i :: is => (w.advance i).bind fun w' => w'.follow is

/-- Every step of the schedule is taken where it passes this check. -/
def along (good : World ι Row ε α ω → ι → Bool) (w : World ι Row ε α ω) : List ι → Bool
  | [] => true
  | i :: is => good w i && (w.advance i).all fun w' => along good w' is

variable {w w' : World ι Row ε α ω} {i : ι} {is : List ι} {faults : ε → Prop}

theorem step_of_advance (h : w.advance i = some w') : Step faults i w w' := by
  unfold advance at h
  split at h
  · cases h
  · rename_i hi
    cases h
    exact .start hi
  · rename_i hi
    cases h
    exact .commit hi
  · rename_i hi
    cases h
    exact .throw hi
  · rename_i hi
    cases h
    exact .read hi
  · rename_i hi
    cases h
    exact .fresh hi
  · rename_i hi
    split_ifs at h with hfree
    split at h
    · rename_i hu
      cases h
      exact .write hi hfree hu
    · rename_i hu
      cases h
      exact .writeFail hi hfree hu
  · cases h

theorem reachable_of_follow (h : w.follow is = some w') : Reachable faults w w' := by
  induction is generalizing w with
  | nil =>
    cases h
    exact .refl
  | cons i is ih =>
    obtain ⟨v, hv, hrest⟩ := Option.bind_eq_some_iff.1 h
    exact .head ⟨i, step_of_advance hv⟩ (ih hrest)

theorem chain_of_follow {R : World ι Row ε α ω → World ι Row ε α ω → Prop}
    {good : World ι Row ε α ω → ι → Bool}
    (hR : ∀ w w' i, good w i = true → w.advance i = some w' → R w w')
    (hgood : along good w is = true) (h : w.follow is = some w') :
    Relation.ReflTransGen R w w' := by
  induction is generalizing w with
  | nil =>
    cases h
    exact .refl
  | cons i is ih =>
    obtain ⟨v, hv, hrest⟩ := Option.bind_eq_some_iff.1 h
    obtain ⟨hhead, htail⟩ := Bool.and_eq_true_iff.1 hgood
    rw [hv] at htail
    exact .head (hR w v i hhead hv) (ih htail hrest)

end World

end TrueFigure.Library
