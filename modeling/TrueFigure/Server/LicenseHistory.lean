import TrueFigure.Library.Windows
import TrueFigure.Server.Licenses

/-!
# Histories of licenses

The rows of a deployment in the order they were declared, and what one declaration
makes of them: the open row is closed where the new one starts, so that the windows
stay successive.
-/
namespace TrueFigure.Server

open TrueFigure.Library TrueFigure.Python

def LicenseRow.window (row : LicenseRow) : Window ℤ := ⟨row.validFrom, row.validTo⟩

/-- Rows stand under their own numbers, which the sequence has passed. -/
def Numbered (s : LicenseDb) (n : ℕ) : Prop :=
  ∀ id row, s.lookup (LicenseKey.license id) = some row → row.id = id ∧ id < n

/-- What the tables of the licenses keep to. -/
structure LicensesOk (s : LicenseDb) (n : ℕ) : Prop where
  numbered : Numbered s n
  successive : ∀ dep, Successive ((history s dep).map LicenseRow.window)

/-! ### The rows of a deployment -/

section History

variable {s t : LicenseDb} {n dep : ℕ} {row row' : LicenseRow} {rows : List LicenseRow}

theorem Numbered.lookup (h : Numbered s n) (hrow : row ∈ history s dep) :
    s.lookup (LicenseKey.license row.id) = some row := by
  obtain ⟨⟨id, hid⟩, -⟩ := mem_history.1 hrow
  rwa [(h id row hid).1]

theorem Numbered.mem_history_iff (h : Numbered s n) :
    row ∈ history s dep ↔ s.lookup (LicenseKey.license row.id) = some row ∧
      row.deploymentId = dep :=
  ⟨fun hrow => ⟨h.lookup hrow, (mem_history.1 hrow).2⟩,
    fun hrow => mem_history.2 ⟨⟨_, hrow.1⟩, hrow.2⟩⟩

theorem Numbered.ids (h : Numbered s n) :
    (licenses s).Pairwise fun row row' => row.id ≠ row'.id := by
  unfold licenses
  rw [List.pairwise_filterMap]
  refine s.nodupKeys.pairwise_ne.imp_of_mem ?_
  rintro ⟨k, cell⟩ ⟨k', cell'⟩ hmem hmem' hne row hrow row' hrow'
  cases k with
  | license id =>
    cases k' with
    | license id' =>
      cases hrow
      cases hrow'
      rw [(h id row (AList.mem_lookup_iff.2 hmem)).1,
        (h id' row' (AList.mem_lookup_iff.2 hmem')).1]
      rintro rfl
      exact hne rfl
    | current d => cases hrow'
    | identifier id' ref => cases hrow'
  | current d => cases hrow
  | identifier id ref => cases hrow

theorem Numbered.declared (h : Numbered s n) :
    (history s dep).Pairwise fun row row' => row.id < row'.id := by
  have hsorted : (history s dep).Pairwise fun row row' => row.id ≤ row'.id :=
    List.pairwise_insertionSort (fun row row' : LicenseRow => row.id ≤ row'.id) _
  have hdistinct : (history s dep).Pairwise fun row row' => row.id ≠ row'.id := by
    refine (List.perm_insertionSort _ _).symm.pairwise (h.ids.filter _) ?_
    exact Ne.symm
  exact (hsorted.and hdistinct).imp fun hboth => lt_of_le_of_ne hboth.1 hboth.2

theorem Numbered.history_eq (h : Numbered s n)
    (hrows : rows.Pairwise fun row row' => row.id < row'.id)
    (hmem : ∀ row, row ∈ rows ↔ row ∈ history s dep) : history s dep = rows := by
  have hnodup : ∀ {rows : List LicenseRow},
      rows.Pairwise (fun row row' => row.id < row'.id) → rows.Nodup := fun hpairs =>
    hpairs.imp fun hlt heq => by
      rw [heq] at hlt
      exact lt_irrefl _ hlt
  refine List.Perm.eq_of_pairwise ?_ h.declared hrows ?_
  · intro a b _ _ hab hba
    exact absurd hab (lt_asymm hba)
  · refine (List.perm_ext_iff_of_nodup (hnodup h.declared) (hnodup hrows)).2 fun row => ?_
    exact (hmem row).symm

theorem mem_openRows_iff : row ∈ openRows s dep ↔ row ∈ history s dep ∧ row.validTo = none := by
  rw [mem_openRows, mem_history, LicenseRow.Open, and_assoc]

theorem LicensesOk.mem_openRows_iff_last {pre : List LicenseRow} (h : LicensesOk s n)
    (hrows : history s dep = pre ++ [row]) : row' ∈ openRows s dep ↔ row' = row := by
  have hsuccessive := h.successive dep
  rw [hrows, List.map_append, List.map_singleton] at hsuccessive
  obtain ⟨hlast, hpre⟩ := hsuccessive.open_iff
  rw [mem_openRows_iff, hrows, List.mem_append, List.mem_singleton]
  constructor
  · rintro ⟨hrow' | hrow', hopen⟩
    · exact absurd hopen (hpre _ (List.mem_map_of_mem hrow'))
    · exact hrow'
  · rintro rfl
    exact ⟨.inr rfl, hlast⟩

/-- There is an open row once a license has been declared. -/
theorem LicensesOk.history_eq_nil (h : LicensesOk s n) (hopen : openRows s dep = []) :
    history s dep = [] := by
  rcases List.eq_nil_or_concat (history s dep) with hrows | ⟨pre, row, hrows⟩
  · exact hrows
  · rw [List.concat_eq_append] at hrows
    have hrow := (h.mem_openRows_iff_last hrows).2 rfl
    rw [hopen] at hrow
    cases hrow

theorem LicensesOk.eq_of_open (h : LicensesOk s n) (hrow : row ∈ openRows s dep)
    (hrow' : row' ∈ openRows s dep) : row = row' := by
  rcases List.eq_nil_or_concat (history s dep) with hrows | ⟨pre, last, hrows⟩
  · rw [mem_openRows_iff, hrows] at hrow
    cases hrow.1
  · rw [List.concat_eq_append] at hrows
    rw [h.mem_openRows_iff_last hrows] at hrow hrow'
    exact hrow.trans hrow'.symm

theorem LicensesOk.openRows_cases (h : LicensesOk s n) (dep : ℕ) :
    openRows s dep = [] ∨ ∃ row, openRows s dep = [row] := by
  have hids : (openRows s dep).Pairwise fun row row' => row.id ≠ row'.id := h.numbered.ids.filter _
  match hrows : openRows s dep with
  | [] => exact .inl rfl
  | [row] => exact .inr ⟨row, rfl⟩
  | row :: row' :: rows =>
    have hrow : row ∈ openRows s dep := by simp [hrows]
    have hrow' : row' ∈ openRows s dep := by simp [hrows]
    rw [hrows] at hids
    have hne := (List.pairwise_cons.1 hids).1 row' List.mem_cons_self
    exact absurd (congrArg LicenseRow.id (h.eq_of_open hrow hrow')) hne

theorem LicensesOk.openRows_eq (h : LicensesOk s n) (hrow : row ∈ openRows s dep) :
    openRows s dep = [row] := by
  rcases h.openRows_cases dep with hnil | ⟨row', hrows⟩
  · rw [hnil] at hrow
    cases hrow
  · rw [hrows, List.mem_singleton] at hrow
    rw [hrows, hrow]

theorem find_current (s : LicenseDb) (dep : ℕ) :
    (licenses s).find? (fun l => l.deploymentId = dep ∧ l.validTo = none) =
      (openRows s dep).head? := List.head?_filter.symm

end History

/-! ### A declaration -/

/-- The row once a license that starts on this day is declared. -/
def LicenseRow.closedAt (day : ℤ) (row : LicenseRow) : LicenseRow :=
  if row.validTo = none then { row with validTo := some day } else row

theorem LicenseRow.closedAt_open {day : ℤ} {row : LicenseRow} (h : row.validTo = none) :
    row.closedAt day = { row with validTo := some day } := if_pos h

theorem LicenseRow.closedAt_closed {day : ℤ} {row : LicenseRow} (h : row.validTo ≠ none) :
    row.closedAt day = row := if_neg h

@[simp] theorem LicenseRow.closedAt_id (day : ℤ) (row : LicenseRow) :
    (row.closedAt day).id = row.id := by
  unfold closedAt
  split_ifs <;> rfl

/-- What a call that succeeds does to the licenses. -/
structure Declares (s t : LicenseDb) (old : Option LicenseRow) (row : LicenseRow) : Prop where
  opened : row.validTo = none
  unused : s.lookup (LicenseKey.license row.id) = none
  above : ∀ r ∈ history s row.deploymentId, r.id < row.id
  seen : ∀ r ∈ openRows s row.deploymentId, r ∈ old
  found : ∀ r ∈ old, s.lookup (LicenseKey.license r.id) = some r ∧ r.Open row.deploymentId ∧
    r.validFrom ≤ row.validFrom
  inserted : t.lookup (LicenseKey.license row.id) = some row
  closed : ∀ r ∈ old, t.lookup (LicenseKey.license r.id) =
    some { r with validTo := some row.validFrom }
  others : ∀ id, id ≠ row.id → (∀ r ∈ old, id ≠ r.id) →
    t.lookup (LicenseKey.license id) = s.lookup (LicenseKey.license id)

section Declaration

variable {s t : LicenseDb} {n n' dep : ℕ} {old : Option LicenseRow} {row r : LicenseRow}

theorem window_closedAt (day : ℤ) (rows : List LicenseRow) :
    (rows.map (LicenseRow.closedAt day)).map LicenseRow.window =
      closeOpen day (rows.map LicenseRow.window) := by
  rw [closeOpen, List.map_map, List.map_map]
  refine List.map_congr_left fun row _ => ?_
  by_cases hopen : row.validTo = none
  · simp [LicenseRow.window, LicenseRow.closedAt_open hopen, hopen]
  · simp [LicenseRow.window, LicenseRow.closedAt_closed hopen, hopen]

/-- A row of the new tables is the new one, the closed one or an old one. -/
theorem Declares.lookup_cases (h : Declares s t old row) {id : ℕ}
    (hr : t.lookup (LicenseKey.license id) = some r) :
    (id = row.id ∧ r = row) ∨
      (∃ o ∈ old, id = o.id ∧ r = { o with validTo := some row.validFrom }) ∨
      (id ≠ row.id ∧ (∀ o ∈ old, id ≠ o.id) ∧ s.lookup (LicenseKey.license id) = some r) := by
  by_cases hnew : id = row.id
  · rw [hnew, h.inserted] at hr
    exact .inl ⟨hnew, (Option.some.inj hr).symm⟩
  · by_cases hold : ∃ o ∈ old, id = o.id
    · obtain ⟨o, ho, hid⟩ := hold
      rw [hid, h.closed o ho] at hr
      exact .inr (.inl ⟨o, ho, hid, (Option.some.inj hr).symm⟩)
    · have hold' : ∀ o ∈ old, id ≠ o.id := fun o ho hid => hold ⟨o, ho, hid⟩
      rw [h.others id hnew hold'] at hr
      exact .inr (.inr ⟨hnew, hold', hr⟩)

theorem Declares.lookup_kept (h : Declares s t old row) {id : ℕ}
    (hr : s.lookup (LicenseKey.license id) = some r) :
    ∃ r', t.lookup (LicenseKey.license id) = some r' := by
  by_cases hnew : id = row.id
  · exact ⟨row, hnew ▸ h.inserted⟩
  · by_cases hold : ∃ o ∈ old, id = o.id
    · obtain ⟨o, ho, rfl⟩ := hold
      exact ⟨_, h.closed o ho⟩
    · refine ⟨r, ?_⟩
      rwa [h.others id hnew fun o ho hid => hold ⟨o, ho, hid⟩]

theorem Declares.numbered (h : Declares s t old row) (hs : Numbered s n) (hn : row.id < n) :
    Numbered t n := by
  intro id r hr
  rcases h.lookup_cases hr with ⟨hid, rfl⟩ | ⟨o, ho, hid, rfl⟩ | ⟨-, -, hr⟩
  · exact ⟨hid.symm, hid ▸ hn⟩
  · exact ⟨hid.symm, hid ▸ (hs o.id o (h.found o ho).1).2⟩
  · exact hs id r hr

/-- The licenses of other deployments are left as they were. -/
theorem Declares.history_of_ne (h : Declares s t old row) (hs : Numbered s n) (hn : row.id < n)
    (hdep : dep ≠ row.deploymentId) : history t dep = history s dep := by
  refine (h.numbered hs hn).history_eq hs.declared fun r => ?_
  rw [hs.mem_history_iff, (h.numbered hs hn).mem_history_iff]
  refine and_congr_left fun hr => ⟨fun hlookup => ?_, fun hlookup => ?_⟩
  · rw [h.others]
    · exact hlookup
    · intro hid
      rw [hid, h.unused] at hlookup
      cases hlookup
    · intro o ho hid
      obtain ⟨hfound, hopen, -⟩ := h.found o ho
      rw [hid, hfound] at hlookup
      obtain rfl := Option.some.inj hlookup
      exact hdep (hr.symm.trans hopen.1)
  · rcases h.lookup_cases hlookup with ⟨-, rfl⟩ | ⟨o, ho, -, rfl⟩ | ⟨-, -, hlookup⟩
    · exact absurd hr.symm hdep
    · exact absurd (hr.symm.trans (h.found o ho).2.1.1) hdep
    · exact hlookup

/-- The open row is closed, and the new one comes last. -/
theorem Declares.history_self (h : Declares s t old row) (hs : Numbered s n) (hn : row.id < n) :
    history t row.deploymentId =
      (history s row.deploymentId).map (LicenseRow.closedAt row.validFrom) ++ [row] := by
  have ht := h.numbered hs hn
  refine ht.history_eq ?_ fun r => ?_
  · rw [List.pairwise_append, List.pairwise_map]
    refine ⟨by simpa using hs.declared, List.pairwise_singleton _ _, ?_⟩
    intro r' hr' x hx
    obtain ⟨r, hr, rfl⟩ := List.mem_map.1 hr'
    rw [List.mem_singleton.1 hx, LicenseRow.closedAt_id]
    exact h.above r hr
  · rw [List.mem_append, List.mem_singleton, List.mem_map, ht.mem_history_iff]
    constructor
    · rintro (⟨r, hr, rfl⟩ | rfl)
      · obtain ⟨hlookup, hdep⟩ := hs.mem_history_iff.1 hr
        by_cases hopen : r.validTo = none
        · rw [LicenseRow.closedAt_open hopen]
          exact ⟨h.closed r (h.seen r (mem_openRows_iff.2 ⟨hr, hopen⟩)), hdep⟩
        · rw [LicenseRow.closedAt_closed hopen]
          refine ⟨?_, hdep⟩
          rw [h.others]
          · exact hlookup
          · intro hid
            rw [hid, h.unused] at hlookup
            cases hlookup
          · intro o ho hid
            obtain ⟨hfound, hopen', -⟩ := h.found o ho
            rw [hid, hfound] at hlookup
            obtain rfl := Option.some.inj hlookup
            exact hopen hopen'.2
      · exact ⟨h.inserted, rfl⟩
    · rintro ⟨hlookup, hdep⟩
      rcases h.lookup_cases hlookup with ⟨-, rfl⟩ | ⟨o, ho, -, rfl⟩ | ⟨-, hne, hlookup⟩
      · exact .inr rfl
      · obtain ⟨hfound, hopen, -⟩ := h.found o ho
        refine .inl ⟨o, hs.mem_history_iff.2 ⟨hfound, hopen.1⟩, ?_⟩
        exact LicenseRow.closedAt_open hopen.2
      · have hr := hs.mem_history_iff.2 ⟨hlookup, hdep⟩
        refine .inl ⟨r, hr, LicenseRow.closedAt_closed fun hopen => ?_⟩
        exact hne r (h.seen r (mem_openRows_iff.2 ⟨hr, hopen⟩)) rfl

theorem Declares.licensesOk (h : Declares s t old row) (hs : LicensesOk s n) (hn : row.id < n) :
    LicensesOk t n := by
  refine ⟨h.numbered hs.numbered hn, fun dep => ?_⟩
  by_cases hdep : dep = row.deploymentId
  · rw [hdep, h.history_self hs.numbered hn, List.map_append, window_closedAt, List.map_singleton]
    have hwindow : row.window = ⟨row.validFrom, none⟩ := by rw [LicenseRow.window, h.opened]
    rw [hwindow]
    refine (hs.successive _).close fun w hw hopen => ?_
    obtain ⟨r, hr, rfl⟩ := List.mem_map.1 hw
    exact (h.found r (h.seen r (mem_openRows_iff.2 ⟨hr, hopen⟩))).2.2
  · rw [h.history_of_ne hs.numbered hn hdep]
    exact hs.successive dep

end Declaration

end TrueFigure.Server
