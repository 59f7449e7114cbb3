import TrueFigure.Library.Schedules
import TrueFigure.Server.LicenseHistory

/-!
# Runs of license declarations

Whatever calls of `declare_license` run beside each other, the rows of a deployment are
successive windows, the last one open. A call closes the open row it has locked, or
finds that nothing was declared before; every other call fails.
-/
namespace TrueFigure.Server

open TrueFigure.Library TrueFigure.Python

/-- What the rows of a deployment are, in the order they were declared. -/
structure Partitioned (rows : List LicenseRow) : Prop where
  declared : rows.Pairwise fun row row' => row.id < row'.id
  ordered : rows.Pairwise fun row row' => row.validFrom ≤ row'.validFrom
  contiguous : ∀ pre row row' post, rows = pre ++ row :: row' :: post →
    row.validTo = some row'.validFrom
  disjoint : rows.Pairwise fun row row' =>
    ∀ day, ¬ (row.window.Covers day ∧ row'.window.Covers day)
  current : ∀ pre row, rows = pre ++ [row] →
    row.validTo = none ∧ ∀ row' ∈ pre, row'.validTo ≠ none

/-! ### A call among others -/

/-- What a call has written once the rows its update found are dealt with, and the row
it has closed. -/
inductive Closing (dep : ℕ) (day : ℤ) : List (Change LicenseCell) → Option LicenseRow → Prop
  | nothing : Closing dep day [] none
  | stale {id : ℕ} {row : LicenseRow} (hid : row.id = id) (hstale : ¬ row.Open dep) :
      Closing dep day [⟨.license id, some row, row⟩] none
  | closed {id : ℕ} {row : LicenseRow} (hid : row.id = id) (hopen : row.Open dep)
      (hle : row.validFrom ≤ day) :
      Closing dep day [⟨.license id, some row, { row with validTo := some day }⟩] (some row)

/-- A call has drawn the number of its row. Where it has closed a row, the number is
above those of its deployment. -/
structure Entering (s : LicenseDb) (n : ℕ) (log : List (Change LicenseCell))
    (old : Option LicenseRow) (row : LicenseRow) : Prop where
  closing : Closing row.deploymentId row.validFrom log old
  opened : row.validTo = none
  drawn : row.id < n
  above : ∀ o ∈ old, ∀ r ∈ history s row.deploymentId, r.id < row.id

/-- A call has inserted its row and perhaps some of its identifiers. Where it has closed
no row, there is none that is open. -/
structure Inserted (s : LicenseDb) (n : ℕ) (log : List (Change LicenseCell))
    (old : Option LicenseRow) (row : LicenseRow) : Prop where
  parts : ∃ pre before idents, Entering s n pre old row ∧
    log = pre ++ ⟨.current row.deploymentId, before, row.id⟩ ::
      ⟨.license row.id, none, row⟩ :: idents ∧
    ∀ c ∈ idents, ∃ ref, c.key = LicenseKey.identifier row.id ref
  free : old = none → openRows s row.deploymentId = []

/-- Where a call stands between its statements. -/
inductive LicensePoint (s : LicenseDb) (n : ℕ) :
    List (Change LicenseCell) → LicenseTxn → Prop
  | refused {log : List (Change LicenseCell)} {e : Failure} : LicensePoint s n log (.throw e)
  | resolved (c : LicenseCall) (dep : ℕ) (day : ℤ) :
      LicensePoint s n [] (.read fun t =>
        closeRows dep day (openRows t dep) (enterLicense c dep day))
  | closing (c : LicenseCall) (dep : ℕ) (day : ℤ) {row r : LicenseRow}
      (hrow : s.lookup (LicenseKey.license row.id) = some r) :
      LicensePoint s n [] (.write (.license row.id) (closeRow dep day row) fun _ =>
        enterLicense c dep day)
  | drawing {log : List (Change LicenseCell)} {dep : ℕ} {day : ℤ} {old : Option LicenseRow}
      {body : LicenseDeclare} {values : ℕ → LicenseRow} (hclosing : Closing dep day log old)
      (hvalues : licenseValues body dep day = .ok values) (refs : List String)
      (reply : ℕ → LicenseReply) :
      LicensePoint s n log (.fresh fun id =>
        insertLicense (values id) (insertIdentifiers id refs (.pure (reply id))))
  | entering {log : List (Change LicenseCell)} {old : Option LicenseRow} {row : LicenseRow}
      (h : Entering s n log old row) (refs : List String) (reply : LicenseReply) :
      LicensePoint s n log (insertLicense row (insertIdentifiers row.id refs (.pure reply)))
  | checking {log : List (Change LicenseCell)} {old : Option LicenseRow} {row : LicenseRow}
      (h : Entering s n log old row) (before : Option ℕ) (refs : List String)
      (reply : LicenseReply) :
      LicensePoint s n (log ++ [⟨.current row.deploymentId, before, row.id⟩])
        (insertChecked row (insertIdentifiers row.id refs (.pure reply)))
  | inserting {log : List (Change LicenseCell)} {old : Option LicenseRow} {row : LicenseRow}
      (h : Entering s n log old row) (hfree : old = none → openRows s row.deploymentId = [])
      (before : Option ℕ) (refs : List String) (reply : LicenseReply) :
      LicensePoint s n (log ++ [⟨.current row.deploymentId, before, row.id⟩])
        (.write (.license row.id) (newRow row) fun _ =>
          insertIdentifiers row.id refs (.pure reply))
  | identifying {log : List (Change LicenseCell)} {old : Option LicenseRow} {row : LicenseRow}
      (h : Inserted s n log old row) (ref : String) (refs : List String) (reply : LicenseReply) :
      LicensePoint s n log (.write (.identifier row.id ref) (fun _ => .ok ()) fun _ =>
        insertIdentifiers row.id refs (.pure reply))
  | declared {log : List (Change LicenseCell)} {old : Option LicenseRow} {row : LicenseRow}
      (h : Inserted s n log old row) (reply : LicenseReply) : LicensePoint s n log (.pure reply)

section Points

variable {s t : LicenseDb} {n dep : ℕ} {day : ℤ} {log : List (Change LicenseCell)}
  {old : Option LicenseRow} {row r : LicenseRow}

theorem licenseValues_eq_ok {body : LicenseDeclare} {values : ℕ → LicenseRow}
    (h : licenseValues body dep day = .ok values) (id : ℕ) : (values id).id = id ∧
      (values id).deploymentId = dep ∧ (values id).validFrom = day ∧ (values id).validTo = none := by
  unfold licenseValues at h
  split_ifs at h
  obtain ⟨price, -, h⟩ := bind_eq_ok h
  obtain ⟨currency, -, h⟩ := bind_eq_ok h
  cases h
  exact ⟨rfl, rfl, rfl, rfl⟩

theorem newRow_eq_ok {before : Option LicenseRow} (h : newRow row before = .ok r) :
    before = none ∧ r = row := by
  cases before with
  | none => exact ⟨rfl, (Except.ok.inj h).symm⟩
  | some r' => cases h

theorem point_enterLicense (c : LicenseCall) (h : Closing dep day log old) :
    LicensePoint s n log (enterLicense c dep day) := by
  unfold enterLicense
  split
  · exact .refused
  · rename_i values hvalues
    exact .drawing h hvalues c.body.licensedUserRefs
      fun id => ⟨licenseRef id, c.deploymentId, c.body.seatsPaid⟩

theorem point_insertIdentifiers (h : Inserted s n log old row) (refs : List String)
    (reply : LicenseReply) :
    LicensePoint s n log (insertIdentifiers row.id refs (.pure reply)) := by
  cases refs with
  | nil => exact .declared h reply
  | cons ref refs =>
    unfold insertIdentifiers
    split
    · exact .refused
    · exact .identifying h _ refs reply

theorem point_declareLicense (c : LicenseCall) : LicensePoint s n [] (declareLicense c) := by
  unfold declareLicense
  split
  · exact .refused
  · split
    · exact .refused
    · exact .resolved c _ _

/-- The update locks the one row it has found, and closes it if it is still open. -/
theorem closing_of_closeRow (hs : Numbered s n)
    (hrow : s.lookup (LicenseKey.license row.id) = some r) {r' : LicenseRow}
    (hclose : closeRow dep day row (some r) = .ok r') :
    ∃ old, Closing dep day [⟨.license row.id, some r, r'⟩] old := by
  have hid := (hs row.id r hrow).1
  simp only [closeRow, Option.getD_some] at hclose
  split_ifs at hclose with hopen hlt
  · cases hclose
    exact ⟨some r, .closed hid hopen (not_lt.1 hlt)⟩
  · cases hclose
    exact ⟨none, .stale hid hopen⟩

/-- The rows of the licenses as a call sees them that has closed one. -/
theorem Closing.lookup (h : Closing dep day log old) (hlog : Consistent log s) :
    (∀ o ∈ old, s.lookup (LicenseKey.license o.id) = some o ∧ o.Open dep ∧ o.validFrom ≤ day ∧
      LicenseKey.license o.id ∈ locked log ∧
      (view log s).lookup (LicenseKey.license o.id) = some { o with validTo := some day }) ∧
    ∀ id, (∀ o ∈ old, id ≠ o.id) →
      (view log s).lookup (LicenseKey.license id) = s.lookup (LicenseKey.license id) := by
  cases h with
  | nothing => exact ⟨fun o ho => (nomatch ho), fun id _ => rfl⟩
  | @stale id row hid hstale =>
    refine ⟨fun o ho => (nomatch ho), fun id' _ => ?_⟩
    rw [view_cons, view_nil]
    by_cases heq : LicenseKey.license id' = LicenseKey.license id
    · rw [heq, AList.lookup_insert]
      exact hlog.1.symm
    · exact AList.lookup_insert_ne heq
  | @closed id row hid hopen hle =>
    subst hid
    constructor
    · intro o ho
      cases ho
      exact ⟨hlog.1, hopen, hle, List.mem_cons_self, AList.lookup_insert _⟩
    · intro id' hne
      rw [view_cons, view_nil]
      refine AList.lookup_insert_ne fun heq => hne row rfl ?_
      exact LicenseKey.license.inj heq

/-- What a call that has inserted its row makes of the licenses, and the keys it has
locked. -/
theorem Inserted.declares (h : Inserted s n log old row) (hs : LicensesOk s n)
    (hlog : Consistent log s) : Declares s (view log s) old row ∧ row.id < n ∧
      LicenseKey.current row.deploymentId ∈ locked log ∧
      ∀ o ∈ old, LicenseKey.license o.id ∈ locked log := by
  obtain ⟨⟨pre, before, idents, hentering, rfl, hidents⟩, hfree⟩ := h
  obtain ⟨hpre, -, hnone, -⟩ := (consistent_append _ _ _).1 hlog
  obtain ⟨hfound, hothers⟩ := hentering.closing.lookup hpre
  have hnew : (view pre s).lookup (LicenseKey.license row.id) = none := by
    refine Eq.trans (AList.lookup_insert_ne ?_).symm hnone
    simp
  have hview : ∀ id, (view (pre ++ ⟨.current row.deploymentId, before, row.id⟩ ::
      ⟨.license row.id, none, row⟩ :: idents) s).lookup (LicenseKey.license id) =
        if id = row.id then some row else (view pre s).lookup (LicenseKey.license id) := by
    intro id
    rw [view_append, view_cons, view_cons, lookup_view_of_not_locked]
    · split_ifs with hid
      · rw [hid, AList.lookup_insert]
      · rw [AList.lookup_insert_ne (by simpa using hid), AList.lookup_insert_ne (by simp)]
    · intro hmem
      obtain ⟨c, hc, hkey⟩ := List.mem_map.1 hmem
      obtain ⟨ref, href⟩ := hidents c hc
      rw [href] at hkey
      cases hkey
  have hne : ∀ o ∈ old, o.id ≠ row.id := by
    intro o ho hid
    have hclosed := (hfound o ho).2.2.2.2
    rw [hid, hnew] at hclosed
    cases hclosed
  refine ⟨⟨hentering.opened, lookup_of_view_none hnew, ?_, ?_, ?_, ?_, ?_, ?_⟩,
    hentering.drawn, ?_, ?_⟩
  · cases old with
    | none => simp [hs.history_eq_nil (hfree rfl)]
    | some o => exact hentering.above o rfl
  · intro r hr
    cases old with
    | none =>
      rw [hfree rfl] at hr
      cases hr
    | some o =>
      obtain ⟨hlookup, hopen, -⟩ := hfound o rfl
      rw [hs.eq_of_open hr (mem_openRows.2 ⟨⟨_, hlookup⟩, hopen⟩)]
      rfl
  · intro o ho
    obtain ⟨hlookup, hopen, hle, -⟩ := hfound o ho
    exact ⟨hlookup, hopen, hle⟩
  · rw [hview, if_pos rfl]
  · intro o ho
    rw [hview, if_neg (hne o ho)]
    exact (hfound o ho).2.2.2.2
  · intro id hid hold
    rw [hview, if_neg hid]
    exact hothers id hold
  · simp
  · intro o ho
    rw [locked_append]
    exact List.mem_append_left _ (hfound o ho).2.2.2.1

theorem openRows_eq_nil_iff : openRows s dep = [] ↔ ∀ r ∈ history s dep, r.validTo ≠ none := by
  rw [List.eq_nil_iff_forall_not_mem]
  refine forall_congr' fun r => ?_
  rw [mem_openRows_iff, not_and]

/-- A declaration that has locked other rows does not reach a deployment whose open row
a call has closed. -/
theorem Entering.stable {old' : Option LicenseRow} {row' : LicenseRow}
    (h : Entering s n log old row) (hs : LicensesOk s n) (hlog : Consistent log s)
    (h' : Declares s t old' row') (hn : row'.id < n)
    (hlocks : ∀ o ∈ old', LicenseKey.license o.id ∉ locked log) : Entering t n log old row where
  closing := h.closing
  opened := h.opened
  drawn := h.drawn
  above o ho r hr := by
    obtain ⟨hlookup, hopen, -, hlock, -⟩ := (h.closing.lookup hlog).1 o ho
    have hdep : row.deploymentId ≠ row'.deploymentId := by
      intro hdep
      rw [hdep] at hopen
      exact hlocks o (h'.seen o (mem_openRows.2 ⟨⟨_, hlookup⟩, hopen⟩)) hlock
    rw [h'.history_of_ne hs.numbered hn hdep] at hr
    exact h.above o ho r hr

theorem free_stable {old' : Option LicenseRow} {row' : LicenseRow} (hs : LicensesOk s n)
    (h' : Declares s t old' row') (hn : row'.id < n) (hdep : dep ≠ row'.deploymentId)
    (hfree : openRows s dep = []) : openRows t dep = [] := by
  rw [openRows_eq_nil_iff, h'.history_of_ne hs.numbered hn hdep]
  exact openRows_eq_nil_iff.1 hfree

theorem Entering.kept (h : Entering s n log old row) : Entering s (n + 1) log old row :=
  ⟨h.closing, h.opened, h.drawn.trans (Nat.lt_succ_self n), h.above⟩

theorem Inserted.kept (h : Inserted s n log old row) : Inserted s (n + 1) log old row := by
  obtain ⟨⟨pre, before, idents, hentering, hlog, hidents⟩, hfree⟩ := h
  exact ⟨⟨pre, before, idents, hentering.kept, hlog, hidents⟩, hfree⟩

theorem Inserted.snoc (h : Inserted s n log old row) (ref : String) (before : Option Unit) :
    Inserted s n (log ++ [⟨.identifier row.id ref, before, ()⟩]) old row := by
  obtain ⟨⟨pre, before', idents, hentering, rfl, hidents⟩, hfree⟩ := h
  refine ⟨⟨pre, before', idents ++ [⟨.identifier row.id ref, before, ()⟩], hentering, ?_, ?_⟩, hfree⟩
  · simp
  · intro c hc
    rcases List.mem_append.1 hc with hc | hc
    · exact hidents c hc
    · rw [List.mem_singleton.1 hc]
      exact ⟨ref, rfl⟩

theorem Inserted.stable {old' : Option LicenseRow} {row' : LicenseRow}
    (h : Inserted s n log old row) (hs : LicensesOk s n) (hlog : Consistent log s)
    (h' : Declares s t old' row') (hn : row'.id < n)
    (hlocks : ∀ o ∈ old', LicenseKey.license o.id ∉ locked log)
    (hcurrent : LicenseKey.current row'.deploymentId ∉ locked log) : Inserted t n log old row := by
  obtain ⟨⟨pre, before, idents, hentering, rfl, hidents⟩, hfree⟩ := h
  obtain ⟨hpre, -⟩ := (consistent_append _ _ _).1 hlog
  simp only [locked_append, locked_cons, List.mem_append, List.mem_cons, not_or] at hlocks hcurrent
  refine ⟨⟨pre, before, idents, ?_, rfl, hidents⟩, fun hold => ?_⟩
  · exact hentering.stable hs hpre h' hn fun o ho => (hlocks o ho).1
  · refine free_stable hs h' hn ?_ (hfree hold)
    intro hdep
    exact hcurrent.2.1 (by rw [hdep])

/-- What a call sees that has closed no row is as it was committed. -/
theorem Entering.free_of_view {before : Option ℕ} (h : Entering s n log old row)
    (hlog : Consistent (log ++ [⟨.current row.deploymentId, before, row.id⟩]) s)
    (hold : old = none) (hnone : openRows (view
      (log ++ [⟨.current row.deploymentId, before, row.id⟩]) s) row.deploymentId = []) :
    openRows s row.deploymentId = [] := by
  obtain ⟨hpre, -⟩ := (consistent_append _ _ _).1 hlog
  have hothers := (h.closing.lookup hpre).2
  rw [List.eq_nil_iff_forall_not_mem] at hnone ⊢
  intro r hr
  obtain ⟨⟨id, hid⟩, hopen⟩ := mem_openRows.1 hr
  refine hnone r (mem_openRows.2 ⟨⟨id, ?_⟩, hopen⟩)
  rw [view_append, view_cons, view_nil, AList.lookup_insert_ne (by simp), ← hid]
  exact hothers id fun o ho => by rw [hold] at ho; cases ho

theorem licenseOutline : Outline LicensesOk LicensePoint where
  read {s n log f} hs hlog h := by
    cases h with
    | resolved c dep day =>
      change LicensePoint s n [] (closeRows dep day (openRows s dep) (enterLicense c dep day))
      rcases hs.openRows_cases dep with hrows | ⟨row, hrows⟩
      · rw [hrows]
        exact point_enterLicense c .nothing
      · have hrow : row ∈ openRows s dep := by
          rw [hrows]
          exact List.mem_singleton_self row
        rw [hrows]
        exact .closing c dep day (hs.numbered.lookup (mem_openRows_iff.1 hrow).1)
    | checking h before refs reply =>
      dsimp only
      split_ifs with hnone
      · exact .inserting h (fun hold => h.free_of_view hlog hold hnone) before refs reply
      · exact .refused
  write {s n log k update f cell} hs hlog h hu := by
    cases h with
    | closing c dep day hrow =>
      rw [view_nil, hrow] at hu ⊢
      obtain ⟨old, hclosing⟩ := closing_of_closeRow hs.numbered hrow hu
      exact point_enterLicense c hclosing
    | entering h refs reply =>
      cases hu
      exact .checking h _ refs reply
    | @inserting log old row h hfree before refs reply =>
      obtain ⟨hnone, hcell⟩ := newRow_eq_ok hu
      rw [hnone, hcell]
      refine point_insertIdentifiers ⟨⟨log, before, [], h, ?_, ?_⟩, hfree⟩ refs reply
      · simp
      · exact fun c hc => nomatch hc
    | identifying h ref refs reply => exact point_insertIdentifiers (h.snoc ref _) refs reply
  claim hs hlog h hrow hrank := by cases h
  claimNone h := by cases h
  fresh {s n log f} hs hlog h := by
    cases h with
    | @drawing log dep day old body values hclosing hvalues refs reply =>
      obtain ⟨hid, hdep, hday, hopen⟩ := licenseValues_eq_ok hvalues n
      have hentering : Entering s (n + 1) log old (values n) := by
        refine ⟨by rwa [hdep, hday], hopen, by omega, fun o _ r hr => ?_⟩
        rw [hid]
        exact (hs.numbered _ r (hs.numbered.lookup hr)).2
      have hpoint := LicensePoint.entering hentering refs (reply n)
      rwa [hid] at hpoint
  next {s n} hs :=
    ⟨fun id row hrow => ⟨(hs.numbered id row hrow).1, (hs.numbered id row hrow).2.trans
      (Nat.lt_succ_self n)⟩, hs.successive⟩
  kept {s n log rest} h := by
    cases h with
    | refused => exact .refused
    | resolved c dep day => exact .resolved c dep day
    | closing c dep day hrow => exact .closing c dep day hrow
    | drawing hclosing hvalues refs reply => exact .drawing hclosing hvalues refs reply
    | entering h refs reply => exact .entering h.kept refs reply
    | checking h before refs reply => exact .checking h.kept before refs reply
    | inserting h hfree before refs reply => exact .inserting h.kept hfree before refs reply
    | identifying h ref refs reply => exact .identifying h.kept ref refs reply
    | declared h reply => exact .declared h.kept reply
  commit {s n log a} hs hlog h := by
    cases h with
    | declared h reply =>
      obtain ⟨hdeclares, hn, -⟩ := h.declares hs hlog
      exact hdeclares.licensesOk hs hn
  stable {s n log rest log' a} hs hlog hlog' h h' hlocks := by
    cases h' with
    | @declared _ old' row' hinserted reply =>
      obtain ⟨hdeclares, hn, hcurrent, hlicense⟩ := hinserted.declares hs hlog'
      have hold : ∀ o ∈ old', LicenseKey.license o.id ∉ locked log :=
        fun o ho hk => hlocks _ hk (hlicense o ho)
      have hfirst : ∀ {pre : List (Change LicenseCell)} {c : Change LicenseCell},
          log = pre ++ [c] → Consistent pre s ∧
            ∀ o ∈ old', LicenseKey.license o.id ∉ locked pre := by
        rintro pre c rfl
        refine ⟨((consistent_append _ _ _).1 hlog).1, fun o ho hk => hold o ho ?_⟩
        rw [locked_append]
        exact List.mem_append_left _ hk
      cases h with
      | refused => exact .refused
      | resolved c dep day => exact .resolved c dep day
      | closing c dep day hrow =>
        obtain ⟨r', hrow'⟩ := hdeclares.lookup_kept hrow
        exact .closing c dep day hrow'
      | drawing hclosing hvalues refs reply => exact .drawing hclosing hvalues refs reply
      | entering h refs reply => exact .entering (h.stable hs hlog hdeclares hn hold) refs reply
      | checking h before refs reply =>
        obtain ⟨hpre, hold⟩ := hfirst rfl
        exact .checking (h.stable hs hpre hdeclares hn hold) before refs reply
      | inserting h hfree before refs reply =>
        obtain ⟨hpre, hold⟩ := hfirst rfl
        refine .inserting (h.stable hs hpre hdeclares hn hold) (fun hnone => ?_) before refs reply
        refine free_stable hs hdeclares hn (fun hdep => ?_) (hfree hnone)
        refine hlocks _ ?_ hcurrent
        simp [hdep]
      | identifying h ref refs reply =>
        exact .identifying (h.stable hs hlog hdeclares hn hold
          fun hk => hlocks _ hk hcurrent) ref refs reply
      | declared h reply =>
        exact .declared (h.stable hs hlog hdeclares hn hold fun hk => hlocks _ hk hcurrent) reply

end Points

/-! ### Calls of any number of callers -/

section Runs

variable {ι : Type} [DecidableEq ι] {faults : Failure → Prop} {s t : LicenseDb} {n dep : ℕ}
  {w w' : World ι LicenseCell Failure LicenseReply Unit}

theorem all_declareLicenses (calls : List LicenseCall) :
    (declareLicenses calls).All (Covered LicensesOk LicensePoint) := by
  induction calls with
  | nil => trivial
  | cons c calls ih =>
    constructor
    · exact fun s n _ => point_declareLicense c
    · exact fun _ => ih

theorem licensesOk_of_empty (h : licenses s = []) : LicensesOk s n := by
  refine ⟨fun id row hrow => ?_, fun dep => ?_⟩
  · have hmem := mem_licenses.2 ⟨id, hrow⟩
    rw [h] at hmem
    cases hmem
  · rw [history, h]
    exact successive_nil

theorem outlined_of_reachable (hempty : licenses w.committed = [])
    (hcalls : ∀ i, ∃ calls, w.stations i = .resting (declareLicenses calls))
    (hr : Reachable faults w w') : Outlined LicensesOk LicensePoint w' := by
  have hidle : w.Idle (Covered LicensesOk LicensePoint) := fun i => by
    obtain ⟨calls, hi⟩ := hcalls i
    exact ⟨_, hi, all_declareLicenses calls⟩
  exact licenseOutline.reachable (hidle.outlined (licensesOk_of_empty hempty)) hr

theorem partitioned_of_licensesOk (h : LicensesOk s n) (dep : ℕ) :
    Partitioned (history s dep) where
  declared := h.numbered.declared
  ordered := by
    have hordered := (h.successive dep).ordered
    rwa [List.pairwise_map] at hordered
  contiguous pre row row' post hrows := by
    have hmeets := (h.successive dep).meets
    rw [hrows, List.map_append, List.map_cons, List.map_cons] at hmeets
    exact (List.isChain_cons_cons.1 (List.isChain_append.1 hmeets).2.1).1.1
  disjoint := List.pairwise_map.1 (h.successive dep).disjoint
  current pre row hrows := by
    have hsuccessive := h.successive dep
    rw [hrows, List.map_append, List.map_singleton] at hsuccessive
    obtain ⟨hlast, hpre⟩ := hsuccessive.open_iff
    exact ⟨hlast, fun row' hrow' => hpre _ (List.mem_map_of_mem hrow')⟩

/-- A license that would start before the current one is refused. -/
theorem declareLicense_backdated {c : LicenseCall} {d : DeploymentRecord} {day : ℤ}
    {old : LicenseRow} (h : LicensesOk s n)
    (hdep : resolveDeployment c.principal c.deploymentId c.deployments = .ok d)
    (hday : bindDate c.date c.body.validFrom = .ok day) (hold : old ∈ openRows s d.id)
    (hlt : day < old.validFrom) (m : ℕ) :
    (declareLicense c).eval s m = (.error (.database .checkViolation), m) := by
  have hrows := h.openRows_eq hold
  obtain ⟨hhistory, hopen⟩ := mem_openRows_iff.1 hold
  have hlookup := h.numbered.lookup hhistory
  have hclose : closeRow d.id day old (some old) = .error (.database .checkViolation) := by
    have hcurrent : old.Open d.id := ⟨(mem_history.1 hhistory).2, hopen⟩
    simp only [closeRow, Option.getD_some, if_pos hcurrent, if_pos hlt]
  simp only [declareLicense, hdep, hday, Txn.eval, hrows, closeRows, hlookup, hclose]

/-- Whatever calls run beside each other, the licenses of every deployment are
successive windows in the order they were declared; only a call that answers changes
them, by its own row; and one that would start before the current license fails. -/
theorem licenses_partitioned (hempty : licenses w.committed = [])
    (hcalls : ∀ i, ∃ calls, w.stations i = .resting (declareLicenses calls))
    (hr : Reachable faults w w') :
    (∀ dep, Partitioned (history w'.committed dep)) ∧
    (∀ i w'', Step faults i w' w'' → w''.committed = w'.committed ∨
      ∃ log reply row, Commits i log reply w' w'' ∧ ∀ dep, history w''.committed dep =
        if dep = row.deploymentId then
          (history w'.committed dep).map (LicenseRow.closedAt row.validFrom) ++ [row]
        else history w'.committed dep) ∧
    ∀ c d day old m, resolveDeployment c.principal c.deploymentId c.deployments = .ok d →
      bindDate c.date c.body.validFrom = .ok day → old ∈ openRows w'.committed d.id →
      day < old.validFrom →
      (declareLicense c).eval w'.committed m = (.error (.database .checkViolation), m) := by
  have hw := outlined_of_reachable hempty hcalls hr
  refine ⟨partitioned_of_licensesOk hw.inv, fun i w'' hs => ?_, ?_⟩
  · rcases hs.committed_eq with hsame | ⟨log, reply, hc⟩
    · exact .inl hsame
    · obtain ⟨next, hi, -⟩ := id hc
      have hst := hw.sound.station i
      rw [hi] at hst
      obtain ⟨old, row, hinserted⟩ : ∃ old row,
          Inserted w'.committed w'.sequence log old row := by
        cases hw.inside i _ _ _ hi with
        | declared h reply => exact ⟨_, _, h⟩
      obtain ⟨hdeclares, hn, -⟩ := hinserted.declares hw.inv hst.1
      refine .inr ⟨log, reply, row, hc, fun dep => ?_⟩
      rw [hc.committed_eq]
      split_ifs with hdep
      · rw [hdep]
        exact hdeclares.history_self hw.inv.numbered hn
      · exact hdeclares.history_of_ne hw.inv.numbered hn hdep
  · exact fun c d day old m hdep hday hold hlt =>
      declareLicense_backdated hw.inv hdep hday hold hlt m

end Runs

/-! ### A call alone -/

section Alone

variable {s t : LicenseDb} {n n' m m' dep : ℕ} {day : ℤ} {c : LicenseCall}
  {reply reply' : LicenseReply}

theorem eval_closeRows {rows : List LicenseRow} {next : LicenseTxn} {r : LicenseReply × LicenseDb}
    (h : (closeRows dep day rows next).eval s m = (.ok r, m')) :
    ∃ s', next.eval s' m = (.ok r, m') := by
  induction rows generalizing s with
  | nil => exact ⟨s, h⟩
  | cons row rows ih =>
    simp only [closeRows, Txn.eval] at h
    split at h
    · exact ih h
    · cases h

theorem eval_insertIdentifiers {id : ℕ} {refs : List String}
    (h : (insertIdentifiers id refs (.pure reply)).eval s m = (.ok (reply', t), m')) (k : ℕ) :
    t.lookup (LicenseKey.license k) = s.lookup (LicenseKey.license k) := by
  induction refs generalizing s with
  | nil =>
    cases h
    rfl
  | cons ref refs ih =>
    unfold insertIdentifiers at h
    split at h
    · cases h
    · rename_i ref' _
      rw [ih h]
      exact AList.lookup_insert_ne (by simp)

theorem lookup_of_eval {values : ℕ → LicenseRow} {refs : List String}
    {replies : ℕ → LicenseReply} (hid : (values n).id = n)
    (h : (Txn.fresh fun id => insertLicense (values id) (insertIdentifiers id refs
      (.pure (replies id)))).eval s n = (.ok (reply, t), n')) :
    t.lookup (LicenseKey.license n) = some (values n) := by
  simp only [Txn.eval, insertLicense, insertChecked] at h
  split_ifs at h
  · simp only [Txn.eval] at h
    split at h
    · rename_i row hrow
      rw [eval_insertIdentifiers h, hid, AList.lookup_insert, (newRow_eq_ok hrow).2]
    · cases h
  · cases h

/-- What a call that succeeds alone does. -/
theorem declareLicense_eq_ok (hs : LicensesOk s n)
    (h : (declareLicense c).eval s n = (.ok (reply, t), n')) : ∃ d day values,
      resolveDeployment c.principal c.deploymentId c.deployments = .ok d ∧
      bindDate c.date c.body.validFrom = .ok day ∧ licenseValues c.body d.id day = .ok values ∧
      LicensesOk t n' ∧
      history t d.id = (history s d.id).map (LicenseRow.closedAt day) ++ [values n] ∧
      ∀ dep, dep ≠ d.id → history t dep = history s dep := by
  have halone : (declareLicense c).eval (view [] s) n = (.ok (reply, t), n') := h
  have hstart : Consistent ([] : List (Change LicenseCell)) s := trivial
  obtain ⟨log, hpoint, hlog, hs', rfl⟩ :=
    licenseOutline.eval hs hstart (point_declareLicense c) halone
  unfold declareLicense at h
  split at h
  · cases h
  · rename_i d hdep
    split at h
    · cases h
    · rename_i day hday
      obtain ⟨s', h⟩ := eval_closeRows (s := s) h
      unfold enterLicense at h
      split at h
      · cases h
      · rename_i values hvalues
        obtain ⟨hid, hrow, hfrom, -⟩ := licenseValues_eq_ok hvalues n
        have hlookup := lookup_of_eval hid h
        cases hpoint with
        | @declared log old row hinserted reply =>
          obtain ⟨hdeclares, hn, -⟩ := hinserted.declares hs' hlog
          obtain rfl : values n = row := by
            rcases hdeclares.lookup_cases hlookup with ⟨-, hrow⟩ | ⟨o, ho, hid, -⟩ | ⟨-, -, hold⟩
            · exact hrow
            · have hlt := (hs.numbered _ _ (hdeclares.found o ho).1).2
              omega
            · exact absurd (hs.numbered _ _ hold).2 (lt_irrefl n)
          refine ⟨d, day, values, hdep, hday, hvalues, hdeclares.licensesOk hs' hn, ?_, ?_⟩
          · have hself := hdeclares.history_self hs'.numbered hn
            rwa [hrow, hfrom] at hself
          · intro dep hne
            exact hdeclares.history_of_ne hs'.numbered hn (by rwa [hrow])

end Alone

/-! ### Two callers -/

/-- A deployment of the first workspace. -/
def copilot : DeploymentRecord where
  id := 1
  workspaceId := 1
  deploymentType := .saasTool
  deploymentMode := .measured
  deploymentStatus := .active
  deploymentRef := "dep_copilot"
  name := "Copilot"
  externalRef := none
  plannedRolloutAt := none

/-- A day of 2026 as `YYYY-MM-DD`; nothing else is read. -/
def dayOf2026 (text : String) : Option ℤ :=
  if text = "2026-01-01" then some 739617
  else if text = "2026-07-01" then some 739798
  else none

/-- So many seats at this price from this day on. -/
def seatLicense (seats : ℕ) (price : Option PyNum) (unit : PeriodUnit) (validFrom : String) :
    LicenseCall where
  principal := ⟨1, .production, .workspace, []⟩
  deploymentId := "dep_copilot"
  body := ⟨seats, price, "USD", unit, validFrom, []⟩
  deployments := [copilot]
  date := dayOf2026

/-- One caller declares a license from January on, another one from July on. -/
def twoCallers : World Bool LicenseCell Failure LicenseReply Unit where
  committed := ∅
  sequence := 1
  stations
    | true => .resting (declareLicenses [seatLicense 10 none .year "2026-01-01"])
    | false => .resting (declareLicenses [seatLicense 20 none .year "2026-07-01"])

/-- The second call begins first, and is read when the first one is committed. -/
theorem licenses_partitioned_callers : ∃ w', Reachable (fun _ => False) twoCallers w' ∧
    (history w'.committed 1).map (fun row => (row.validFrom, row.validTo)) =
      [(739617, some 739798), (739798, none)] ∧
    Partitioned (history w'.committed 1) := by
  let schedule := [false] ++ List.replicate 7 true ++ List.replicate 7 false
  have hfollowed : (twoCallers.follow schedule).any fun w' =>
      (history w'.committed 1).map (fun row => (row.validFrom, row.validTo)) =
        [(739617, some 739798), (739798, none)] := by decide +kernel
  obtain ⟨w', hw', hrows⟩ := (Option.any_eq_true _ _).1 hfollowed
  simp only [decide_eq_true_eq] at hrows
  have hr : Reachable (fun _ => False) twoCallers w' := World.reachable_of_follow hw'
  have hcalls : ∀ i, ∃ calls, twoCallers.stations i = .resting (declareLicenses calls) := by
    intro i
    cases i with
    | true => exact ⟨_, rfl⟩
    | false => exact ⟨_, rfl⟩
  exact ⟨w', hr, hrows, (licenses_partitioned rfl hcalls hr).1 1⟩

end TrueFigure.Server
