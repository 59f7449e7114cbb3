import Mathlib.Data.Finset.Basic
import TrueFigure.Library.Transactions

/-!
# Numbers drawn from the sequence

Rows that carry a number their transaction has drawn for them. A draw is not taken back, so
open transactions hold different numbers, and whatever commits or aborts, in whatever order, no
number comes to stand in two rows.
-/
namespace TrueFigure.Library

variable {κ : Type} [DecidableEq κ] {Row : κ → Type} {ε α ω ι : Type}

section Definitions

variable (number : Sigma Row → Option ℕ)

def numberAt (k : κ) (row : Option (Row k)) : Option ℕ := row.bind fun r => number ⟨k, r⟩

/-- The number stands in a row. -/
def Carried (s : Store Row) (n : ℕ) : Prop := ∃ k, numberAt number k (s.lookup k) = some n

/-- No number stands in two rows. -/
def DistinctNumbers (s : Store Row) : Prop :=
  ∀ k k' n, numberAt number k (s.lookup k) = some n →
    numberAt number k' (s.lookup k') = some n → k = k'

/-- The transaction leaves a row its number or gives it one of `spare`, and each of these to
one row. What it draws it may give. -/
def Numbers : Txn Row ε α → Finset ℕ → Prop
  | .pure _, _ => True
  | .throw _, _ => True
  | .read next, spare => ∀ s, Numbers (next s) spare
  | .write k update next, spare => ∀ before after, update before = .ok after →
      ((∀ n, number ⟨k, after⟩ = some n → numberAt number k before = some n) ∧
        Numbers (next after) spare) ∨
      ∃ n ∈ spare, number ⟨k, after⟩ = some n ∧ Numbers (next after) (spare.erase n)
  | .claim rank next, spare => Numbers (next none) spare ∧
      ∀ k row x, rank k row = some x → Numbers (next (some ⟨k, row⟩)) spare
  | .fresh next, spare => ∀ n, Numbers (next n) (insert n spare)

/-- The changes of the log leave the rows their numbers or give them those of `used`, each to
one row. -/
inductive Gives : Finset ℕ → List (Change Row) → Prop
  | nil {used : Finset ℕ} : Gives used []
  | keep {used : Finset ℕ} {c : Change Row} {log : List (Change Row)}
      (h : ∀ n, number ⟨c.key, c.after⟩ = some n → numberAt number c.key c.before = some n)
      (hlog : Gives used log) : Gives used (c :: log)
  | give {used : Finset ℕ} {c : Change Row} {log : List (Change Row)} {n : ℕ} (hn : n ∈ used)
      (h : number ⟨c.key, c.after⟩ = some n) (hlog : Gives (used.erase n) log) :
      Gives used (c :: log)

/-- An open transaction has given some of the numbers it holds and may give others. -/
def HoldsNumbers (held : Finset ℕ) : Station Row ε α ω → Prop
  | .resting _ => True
  | .inside log rest _ => ∃ used spare, Disjoint used spare ∧ used ⊆ held ∧ spare ⊆ held ∧
      Gives number used log ∧ Numbers number rest spare

/-- The numbers of the rows and those the open transactions hold have been drawn, and all of
them are different. -/
structure WellNumbered (w : World ι Row ε α ω) (held : ι → Finset ℕ) : Prop where
  sound : Sound (fun body => Numbers number body ∅) w
  distinct : DistinctNumbers number w.committed
  carried_lt : ∀ n, Carried number w.committed n → n < w.sequence
  held_lt : ∀ i, ∀ n ∈ held i, n < w.sequence
  apart : ∀ i j, i ≠ j → Disjoint (held i) (held j)
  unused : ∀ i, ∀ n ∈ held i, ¬ Carried number w.committed n
  station : ∀ i, HoldsNumbers number (held i) (w.stations i)

end Definitions

variable {number : Sigma Row → Option ℕ} {used : Finset ℕ} {log : List (Change Row)}
  {c : Change Row} {s : Store Row} {n m : ℕ} {k : κ}

/-! ### Logs -/

omit [DecidableEq κ] in
theorem Gives.snoc_keep (h : Gives number used log)
    (hc : ∀ n, number ⟨c.key, c.after⟩ = some n → numberAt number c.key c.before = some n) :
    Gives number used (log ++ [c]) := by
  induction h with
  | nil => exact .keep hc .nil
  | keep hd _ ih => exact .keep hd ih
  | give hn hd _ ih => exact .give hn hd ih

omit [DecidableEq κ] in
theorem Gives.snoc_give (h : Gives number used log) (hn : n ∉ used)
    (hc : number ⟨c.key, c.after⟩ = some n) : Gives number (insert n used) (log ++ [c]) := by
  induction h with
  | nil => exact .give (Finset.mem_insert_self _ _) hc .nil
  | keep hd _ ih => exact .keep hd (ih hn)
  | @give used d log m hm hd _ ih =>
    have hne : m ≠ n := by
      rintro rfl
      exact hn hm
    have hlog := ih fun hmem => hn (Finset.mem_of_mem_erase hmem)
    rw [← Finset.erase_insert_of_ne hne.symm] at hlog
    exact .give (Finset.mem_insert_of_mem hm) hd hlog

/-- A row that is put there carries its number, the others carry theirs. -/
theorem numberAt_insert {row : Row c.key}
    (h : numberAt number k ((s.insert c.key row).lookup k) = some m) :
    (k = c.key ∧ number ⟨c.key, row⟩ = some m) ∨ numberAt number k (s.lookup k) = some m := by
  by_cases hk : k = c.key
  · subst hk
    rw [AList.lookup_insert] at h
    exact .inl ⟨rfl, h⟩
  · rw [AList.lookup_insert_ne hk] at h
    exact .inr h

/-- What a log leaves has no number twice, if the numbers it gives were nowhere. -/
theorem Gives.view (h : Gives number used log) (hlog : Consistent log s)
    (hs : DistinctNumbers number s) (hfree : ∀ n ∈ used, ¬ Carried number s n) :
    DistinctNumbers number (view log s) ∧
      ∀ n, Carried number (view log s) n → Carried number s n ∨ n ∈ used := by
  induction h generalizing s with
  | nil => exact ⟨hs, fun n hn => .inl hn⟩
  | @keep used c log hkeep _ ih =>
    obtain ⟨hbefore, hlog⟩ := hlog
    have hsame : ∀ k m, numberAt number k ((s.insert c.key c.after).lookup k) = some m →
        numberAt number k (s.lookup k) = some m := by
      intro k m hm
      rcases numberAt_insert hm with ⟨rfl, hnumber⟩ | hm
      · rw [hbefore]
        exact hkeep m hnumber
      · exact hm
    have hcarried : ∀ m, Carried number (s.insert c.key c.after) m → Carried number s m := by
      rintro m ⟨k, hm⟩
      exact ⟨k, hsame k m hm⟩
    obtain ⟨hdistinct, hrest⟩ := ih hlog
      (fun k k' m hm hm' => hs k k' m (hsame k m hm) (hsame k' m hm'))
      fun m hm hin => hfree m hm (hcarried m hin)
    exact ⟨hdistinct, fun m hm => (hrest m hm).imp_left (hcarried m)⟩
  | @give used c log n hn hgive _ ih =>
    obtain ⟨-, hlog⟩ := hlog
    have hsame : ∀ k m, numberAt number k ((s.insert c.key c.after).lookup k) = some m →
        (k = c.key ∧ m = n) ∨ (m ≠ n ∧ numberAt number k (s.lookup k) = some m) := by
      intro k m hm
      rcases numberAt_insert hm with ⟨rfl, hnumber⟩ | hm
      · exact .inl ⟨rfl, Option.some.inj (hnumber.symm.trans hgive)⟩
      · refine .inr ⟨?_, hm⟩
        rintro rfl
        exact hfree m hn ⟨k, hm⟩
    have hdistinct : DistinctNumbers number (s.insert c.key c.after) := by
      intro k k' m hm hm'
      rcases hsame k m hm with ⟨rfl, rfl⟩ | ⟨hne, hm⟩
      · rcases hsame k' m hm' with ⟨rfl, -⟩ | ⟨hne, -⟩
        · rfl
        · exact absurd rfl hne
      · rcases hsame k' m hm' with ⟨-, rfl⟩ | ⟨-, hm'⟩
        · exact absurd rfl hne
        · exact hs k k' m hm hm'
    have hcarried : ∀ m, Carried number (s.insert c.key c.after) m →
        Carried number s m ∨ m = n := by
      rintro m ⟨k, hm⟩
      rcases hsame k m hm with ⟨-, rfl⟩ | ⟨-, hm⟩
      · exact .inr rfl
      · exact .inl ⟨k, hm⟩
    obtain ⟨hlast, hrest⟩ := ih hlog hdistinct fun m hm hin => by
      obtain ⟨hne, hmem⟩ := Finset.mem_erase.1 hm
      rcases hcarried m hin with hin | rfl
      · exact hfree m hmem hin
      · exact hne rfl
    refine ⟨hlast, fun m hm => ?_⟩
    rcases hrest m hm with hm | hm
    · rcases hcarried m hm with hm | rfl
      · exact .inl hm
      · exact .inr hn
    · exact .inr (Finset.mem_of_mem_erase hm)

/-! ### Worlds -/

namespace WellNumbered

variable {w w' : World ι Row ε α ω} {held : ι → Finset ℕ} {i : ι} [DecidableEq ι]

theorem move {st : Station Row ε α ω} (h : WellNumbered number w held)
    (hsound : Sound (fun body => Numbers number body ∅) (w.move i st))
    (hst : HoldsNumbers number (held i) st) : WellNumbered number (w.move i st) held where
  sound := hsound
  distinct := h.distinct
  carried_lt := h.carried_lt
  held_lt := h.held_lt
  apart := h.apart
  unused := h.unused
  station j := by
    by_cases hj : j = i
    · subst hj
      rw [World.move_stations_self]
      exact hst
    · rw [World.move_stations_of_ne _ _ hj]
      exact h.station j

theorem draw (h : WellNumbered number w held) {f : ℕ → Txn Row ε α} {next}
    (hi : w.stations i = .inside log (.fresh f) next)
    (hsound : Sound (fun body => Numbers number body ∅)
      (({ w with sequence := w.sequence + 1 } : World ι Row ε α ω).move i
        (.inside log (f w.sequence) next))) :
    WellNumbered number (({ w with sequence := w.sequence + 1 } : World ι Row ε α ω).move i
      (.inside log (f w.sequence) next))
        (Function.update held i (insert w.sequence (held i))) := by
  have hnew : ∀ j, w.sequence ∉ held j := fun j hj => lt_irrefl _ (h.held_lt j _ hj)
  have hcase : ∀ j n, n ∈ Function.update held i (insert w.sequence (held i)) j →
      (j = i ∧ n = w.sequence) ∨ n ∈ held j := by
    intro j n hn
    by_cases hj : j = i
    · subst hj
      rw [Function.update_self] at hn
      exact (Finset.mem_insert.1 hn).imp_left fun heq => ⟨rfl, heq⟩
    · rw [Function.update_of_ne hj] at hn
      exact .inr hn
  refine ⟨hsound, h.distinct, fun n hn => Nat.lt_succ_of_lt (h.carried_lt n hn), ?_, ?_, ?_, ?_⟩
  · intro j n hn
    rcases hcase j n hn with ⟨-, rfl⟩ | hn
    · exact Nat.lt_succ_self _
    · exact Nat.lt_succ_of_lt (h.held_lt j n hn)
  · intro j j' hne
    refine Finset.disjoint_left.2 fun n hn hn' => ?_
    rcases hcase j n hn with ⟨rfl, rfl⟩ | hmem
    · rcases hcase j' _ hn' with ⟨rfl, -⟩ | hmem'
      · exact hne rfl
      · exact hnew j' hmem'
    · rcases hcase j' n hn' with ⟨rfl, rfl⟩ | hmem'
      · exact hnew j hmem
      · exact Finset.disjoint_left.1 (h.apart j j' hne) hmem hmem'
  · intro j n hn hin
    rcases hcase j n hn with ⟨-, rfl⟩ | hn
    · exact lt_irrefl _ (h.carried_lt _ hin)
    · exact h.unused j n hn hin
  · intro j
    by_cases hj : j = i
    · subst hj
      rw [World.move_stations_self, Function.update_self]
      have hst := h.station j
      rw [hi] at hst
      obtain ⟨used, spare, hdisjoint, hused, hspare, hgives, hrest⟩ := hst
      refine ⟨used, insert w.sequence spare, ?_, hused.trans (Finset.subset_insert _ _),
        Finset.insert_subset_insert _ hspare, hgives, hrest w.sequence⟩
      rw [Finset.disjoint_insert_right]
      exact ⟨fun hmem => hnew j (hused hmem), hdisjoint⟩
    · rw [World.move_stations_of_ne _ _ hj, Function.update_of_ne hj]
      exact h.station j

/-- What a process commits carries the numbers it has given; the others hold other ones. -/
theorem committed (h : WellNumbered number w held) {a : α} {next}
    (hi : w.stations i = .inside log (.pure a) next)
    (hsound : Sound (fun body => Numbers number body ∅)
      (({ w with committed := view log w.committed } : World ι Row ε α ω).move i
        (.resting (next (.ok a))))) :
    WellNumbered number (({ w with committed := view log w.committed } : World ι Row ε α ω).move i
      (.resting (next (.ok a)))) (Function.update held i ∅) := by
  have hst := h.station i
  have hlog := h.sound.station i
  rw [hi] at hst hlog
  obtain ⟨used, spare, -, hused, -, hgives, -⟩ := hst
  obtain ⟨hdistinct, hcarried⟩ := hgives.view hlog.1 h.distinct fun n hn => h.unused i n (hused hn)
  have hcase : ∀ j n, n ∈ Function.update held i ∅ j → j ≠ i ∧ n ∈ held j := by
    intro j n hn
    by_cases hj : j = i
    · subst hj
      rw [Function.update_self] at hn
      exact absurd hn (Finset.notMem_empty n)
    · rw [Function.update_of_ne hj] at hn
      exact ⟨hj, hn⟩
  refine ⟨hsound, hdistinct, fun n hn => ?_, fun j n hn => h.held_lt j n (hcase j n hn).2, ?_, ?_,
    ?_⟩
  · rcases hcarried n hn with hn | hn
    · exact h.carried_lt n hn
    · exact h.held_lt i n (hused hn)
  · intro j j' hne
    refine Finset.disjoint_left.2 fun n hn hn' => ?_
    exact Finset.disjoint_left.1 (h.apart j j' hne) (hcase j n hn).2 (hcase j' n hn').2
  · intro j n hn hin
    obtain ⟨hj, hn⟩ := hcase j n hn
    rcases hcarried n hin with hin | hin
    · exact h.unused j n hn hin
    · exact Finset.disjoint_left.1 (h.apart j i hj) hn (hused hin)
  · intro j
    by_cases hj : j = i
    · subst hj
      rw [World.move_stations_self]
      trivial
    · rw [World.move_stations_of_ne _ _ hj, Function.update_of_ne hj]
      exact h.station j

theorem step (h : WellNumbered number w held) {faults : ε → Prop} (hs : Step faults i w w') :
    ∃ held', WellNumbered number w' held' := by
  have hsound := h.sound.step hs
  have hst := h.station i
  cases hs with
  | start hi =>
    have hrest := h.sound.station i
    rw [hi] at hrest
    exact ⟨held, h.move hsound ⟨∅, ∅, Finset.disjoint_empty_left _, Finset.empty_subset _,
      Finset.empty_subset _, .nil, hrest.1⟩⟩
  | read hi =>
    rw [hi] at hst
    obtain ⟨used, spare, hdisjoint, hused, hspare, hgives, hrest⟩ := hst
    exact ⟨held, h.move hsound ⟨used, spare, hdisjoint, hused, hspare, hgives, hrest _⟩⟩
  | fresh hi => exact ⟨_, h.draw hi hsound⟩
  | write hi hfree hu =>
    rw [hi] at hst
    obtain ⟨used, spare, hdisjoint, hused, hspare, hgives, hrest⟩ := hst
    rcases hrest _ _ hu with ⟨hkeep, hrest⟩ | ⟨n, hn, hgive, hrest⟩
    · exact ⟨held, h.move hsound ⟨used, spare, hdisjoint, hused, hspare, hgives.snoc_keep hkeep,
        hrest⟩⟩
    · have hnot : n ∉ used := fun hmem => Finset.disjoint_left.1 hdisjoint hmem hn
      refine ⟨held, h.move hsound ⟨insert n used, spare.erase n, ?_, ?_,
        (Finset.erase_subset _ _).trans hspare, hgives.snoc_give hnot hgive, hrest⟩⟩
      · rw [Finset.disjoint_insert_left]
        exact ⟨Finset.notMem_erase n spare, hdisjoint.mono_right (Finset.erase_subset _ _)⟩
      · exact Finset.insert_subset (hspare hn) hused
  | claim hi hfree hrow hrank =>
    rw [hi] at hst
    obtain ⟨used, spare, hdisjoint, hused, hspare, hgives, hrest⟩ := hst
    exact ⟨held, h.move hsound ⟨used, spare, hdisjoint, hused, hspare,
      hgives.snoc_keep fun _ hn => hn, hrest.2 _ _ _ hrank⟩⟩
  | claimNone hi =>
    rw [hi] at hst
    obtain ⟨used, spare, hdisjoint, hused, hspare, hgives, hrest⟩ := hst
    exact ⟨held, h.move hsound ⟨used, spare, hdisjoint, hused, hspare, hgives, hrest.1⟩⟩
  | commit hi => exact ⟨_, h.committed hi hsound⟩
  | writeFail => exact ⟨held, h.move hsound trivial⟩
  | throw => exact ⟨held, h.move hsound trivial⟩
  | abort => exact ⟨held, h.move hsound trivial⟩

theorem reachable (h : WellNumbered number w held) {faults : ε → Prop}
    (hr : Reachable faults w w') : ∃ held', WellNumbered number w' held' := by
  induction hr with
  | refl => exact ⟨held, h⟩
  | tail _ hs ih =>
    obtain ⟨held', hw⟩ := ih
    obtain ⟨i, hs⟩ := hs
    exact hw.step hs

end WellNumbered

variable {w w' : World ι Row ε α ω}

theorem World.Idle.wellNumbered (hidle : w.Idle fun body => Numbers number body ∅)
    (hdistinct : DistinctNumbers number w.committed)
    (hdrawn : ∀ n, Carried number w.committed n → n < w.sequence) :
    WellNumbered number w fun _ => ∅ := by
  refine ⟨hidle.sound, hdistinct, hdrawn, ?_, fun _ _ _ => Finset.disjoint_empty_left _, ?_,
    fun i => ?_⟩
  · exact fun i n hn => absurd hn (Finset.notMem_empty n)
  · exact fun i n hn => absurd hn (Finset.notMem_empty n)
  · obtain ⟨p, hp, -⟩ := hidle i
    rw [hp]
    trivial

/-- Where processes number rows by what they draw, no number comes to stand in two rows. -/
theorem distinctNumbers_of_reachable [DecidableEq ι] {faults : ε → Prop}
    (hidle : w.Idle fun body => Numbers number body ∅)
    (hdistinct : DistinctNumbers number w.committed)
    (hdrawn : ∀ n, Carried number w.committed n → n < w.sequence) (hr : Reachable faults w w') :
    DistinctNumbers number w'.committed := by
  obtain ⟨held, hw⟩ := (hidle.wellNumbered hdistinct hdrawn).reachable hr
  exact hw.distinct

/-! ### Transactions that give no numbers -/

omit [DecidableEq κ] in
theorem exists_run (body : Txn Row ε α) : ∃ log r, Runs body log r := by
  induction body with
  | pure a => exact ⟨[], _, .pure a⟩
  | throw e => exact ⟨[], _, .throw e⟩
  | read next ih =>
    obtain ⟨log, r, h⟩ := ih ∅
    exact ⟨log, r, .read ∅ h⟩
  | write k update next ih =>
    cases hu : update none with
    | error e => exact ⟨[], _, .writeFail none hu⟩
    | ok row =>
      obtain ⟨log, r, h⟩ := ih row
      exact ⟨_, r, .write none row hu h⟩
  | claim rank next ih =>
    obtain ⟨log, r, h⟩ := ih none
    exact ⟨log, r, .claimNone h⟩
  | fresh next ih =>
    obtain ⟨log, r, h⟩ := ih 0
    exact ⟨log, r, .fresh 0 h⟩

omit [DecidableEq κ] in
theorem numbers_of_keeps {body : Txn Row ε α} (h : ∀ log r, Runs body log r → ∀ c ∈ log,
    ∀ n, number ⟨c.key, c.after⟩ = some n → numberAt number c.key c.before = some n)
    (spare : Finset ℕ) : Numbers number body spare := by
  induction body generalizing spare with
  | pure a => trivial
  | throw e => trivial
  | read next ih => exact fun s => ih s (fun log r hr => h log r (.read s hr)) spare
  | write k update next ih =>
    intro before after hu
    have hrun : ∀ log r, Runs (next after) log r →
        Runs (.write k update next) (⟨k, before, after⟩ :: log) r :=
      fun log r hr => .write before after hu hr
    refine .inl ⟨fun n hn => ?_, ih after (fun log r hr c hc => ?_) spare⟩
    · obtain ⟨log, r, hr⟩ := exists_run (next after)
      exact h _ r (hrun log r hr) _ List.mem_cons_self n hn
    · exact h _ r (hrun log r hr) c (List.mem_cons_of_mem _ hc)
  | claim rank next ih =>
    refine ⟨ih none (fun log r hr => h log r (.claimNone hr)) spare, fun k row x hrank => ?_⟩
    refine ih _ (fun log r hr c hc => ?_) spare
    exact h _ r (.claim hrank hr) c (List.mem_cons_of_mem _ hc)
  | fresh next ih => exact fun n => ih n (fun log r hr => h log r (.fresh n hr)) _

end TrueFigure.Library
