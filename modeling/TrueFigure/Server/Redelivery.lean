import TrueFigure.Server.Reconciliation

/-!
# Redelivery

Events that are accepted or duplicates may be delivered in any order and
batching, and again at any time. The first delivery stores one row under each
new key and leaves every other row alone; a redelivery is answered `duplicate`
throughout and leaves all rows alone.
-/
namespace TrueFigure.Server

open TrueFigure.Library TrueFigure.Python

variable {env : Env} {s t : Db} {st : Db × ℕ} {ws n : ℕ}

/-- How the batches end, one request each. -/
def outcomes (env : Env) : List Batch → Db × ℕ → List Outcome
  | [], _ => []
  | b :: batches, st =>
    let r := (ingestEvents env b.1 b.2).run st.1 st.2
    r.1 :: outcomes env batches r.2

/-- The event alone is answered `accepted` or `duplicate`. -/
def Accepts (env : Env) (st : Db × ℕ) (a : Intake × Submission) : Prop :=
  ∃ status, ((ingestEvents env a.1 [a.2]).run st.1 st.2).1.statuses = some [status] ∧
    status ≠ .rejected

/-- The batch has a result for every event, under these keys and statuses. -/
def BatchAnswers (key : Intake × Submission → PyStr) (statuses : EventStatus → Prop) (b : Batch)
    (o : Outcome) : Prop :=
  ∃ rs, o = .results rs ∧ List.Forall₂ (fun sub (r : EventResult) =>
    r.eventKey = some (key (b.1, sub)) ∧ statuses r.status) b.2 rs

/-- The rows `t` hold, besides the old rows, one row under each of these keys that
was new, and no other. -/
structure Grown (ws : ℕ) (s t : Db) (keys : Set PyStr) : Prop where
  other : ∀ k, (∀ key at', k ≠ .event ws key at') → t.lookup k = s.lookup k
  old : ∀ key, hasEvent s ws key = true →
    ∀ at', t.lookup (.event ws key at') = s.lookup (.event ws key at')
  stored : ∀ key, hasEvent t ws key = true ↔ hasEvent s ws key = true ∨ key ∈ keys
  once : ∀ key ∈ keys, hasEvent s ws key = false →
    ∃! at', (t.lookup (.event ws key at')).isSome

namespace Grown

theorem refl (ws : ℕ) (s : Db) : Grown ws s s ∅ where
  other _ _ := rfl
  old _ _ _ := rfl
  stored key := by simp
  once key hkey := hkey.elim

theorem config {keys : Set PyStr} (h : Grown ws s t keys) : SameConfig s t :=
  fun k _ hevent => (h.other k fun key at' => hevent ws key at').symm

/-- A key that has its row may be named again. -/
theorem add_stored {keys : Set PyStr} (h : Grown ws s t keys) {key : PyStr}
    (hkey : hasEvent t ws key = true) : Grown ws s t (insert key keys) where
  other := h.other
  old := h.old
  stored key' := by
    rw [h.stored, Set.mem_insert_iff]
    constructor
    · rintro (hold | hmem)
      · exact .inl hold
      · exact .inr (.inr hmem)
    · rintro (hold | rfl | hmem)
      · exact .inl hold
      · exact (h.stored _).1 hkey
      · exact .inr hmem
  once key' hmem hnew := by
    rcases Set.mem_insert_iff.1 hmem with rfl | hmem
    · rcases (h.stored _).1 hkey with hold | hmem
      · rw [hnew] at hold
        cases hold
      · exact h.once _ hmem hnew
    · exact h.once _ hmem hnew

theorem insert {keys : Set PyStr} (h : Grown ws s t keys) {key : PyStr}
    (hkey : hasEvent t ws key = false) (at' : ℤ) (row : EventRow) :
    Grown ws s (t.insert (.event ws key at') row) (insert key keys) where
  other k hk := by
    rw [AList.lookup_insert_ne (hk _ _)]
    exact h.other k hk
  old key' hold at'' := by
    have hne : key' ≠ key := by
      rintro rfl
      rw [(h.stored key').2 (.inl hold)] at hkey
      cases hkey
    rw [AList.lookup_insert_ne (by simp [hne])]
    exact h.old key' hold at''
  stored key' := by
    rw [hasEvent_insert, h.stored, Set.mem_insert_iff, or_assoc, or_comm (a := key' ∈ keys),
      eq_comm (a := key')]
  once key' hmem hnew := by
    by_cases heq : key' = key
    · subst heq
      refine ⟨at', by simp, fun at'' hat'' => ?_⟩
      by_contra hne
      have hother : RowKey.event ws key' at'' ≠ .event ws key' at' := by simpa using hne
      dsimp only at hat''
      rw [AList.lookup_insert_ne hother, lookup_event_of_not_hasEvent hkey] at hat''
      cases hat''
    · have hlookup : ∀ at'', (t.insert (.event ws key at') row).lookup (.event ws key' at'') =
          t.lookup (.event ws key' at'') := fun at'' => AList.lookup_insert_ne (by simp [heq])
      simp only [hlookup]
      exact h.once key' ((Set.mem_insert_iff.1 hmem).resolve_left heq) hnew

end Grown

/-! ### One event -/

/-- The event passes every check at these rows and its payload can be stored, or
needs not. -/
structure Deliverable (env : Env) (ws : ℕ) (s : Db) (a : Intake × Submission) (key : PyStr) : Prop
    where
  workspace : a.1.principal.workspaceId = ws
  production : a.1.principal.isTest = false
  keyed : ∃ adm dep, Keyed env a.1 s a.2 adm dep key ∧
    (hasEvent s ws key = true ∨ ∃ row, eventValues a.1 adm dep = .ok row)

theorem deliverable_of_accepts {a : Intake × Submission} (hseq : SequenceAhead st)
    (hproduction : a.1.principal.isTest = false) (h : Accepts env st a) :
    ∃ key, Deliverable env a.1.principal.workspaceId st.1 a key := by
  obtain ⟨status, hstatus, hne⟩ := h
  have hfits : [a.2].length ≤ maxBatch := show 1 ≤ 500 by decide
  rw [run_ingestEvents hseq hfits] at hstatus
  simp only [settleAll] at hstatus
  cases hsettle : settle env a.1 st.1 a.2 with
  | error e =>
    rw [hsettle] at hstatus
    cases hstatus
  | ok x =>
    have hx : x.verdict.status ≠ .rejected := by
      rw [hsettle] at hstatus
      simp only [requestOutcome] at hstatus
      split at hstatus
      · cases hstatus
      · simp only [resultsFrom, Outcome.statuses, List.map_cons, List.map_nil, Option.some.injEq,
          List.cons.injEq, and_true] at hstatus
        rwa [hstatus]
    rcases settle_cases env a.1 st.1 a.2 with ⟨err, hrejected, -⟩ | ⟨adm, dep, key, hkeyed⟩ | hraises
    · obtain ⟨key, -, hverdict, -⟩ := refuse_ok (hrejected.settle_eq.symm.trans hsettle)
      exact absurd (by rw [hverdict]; rfl) hx
    · refine ⟨key, rfl, hproduction, adm, dep, hkeyed, ?_⟩
      by_cases hold : hasEvent st.1 a.1.principal.workspaceId key = true
      · exact .inl hold
      · have hstore := hkeyed.settle_eq.symm.trans hsettle
        simp only [store, hproduction, Bool.false_eq_true, if_false, if_neg hold] at hstore
        cases hvalues : eventValues a.1 adm dep with
        | ok row => exact .inr ⟨row, rfl⟩
        | error e =>
          rw [hvalues] at hstore
          cases hstore
    · obtain ⟨e, he⟩ := settle_error_iff.2 hraises
      cases he.symm.trans hsettle

namespace Deliverable

variable {a : Intake × Submission} {key : PyStr} {keys : Set PyStr}

theorem settle_stored (h : Deliverable env ws s a key) (hconfig : SameConfig s t)
    (hkey : hasEvent t ws key = true) :
    settle env a.1 t a.2 = .ok ⟨duplicateVerdict key, .nothing⟩ := by
  obtain ⟨adm, dep, hkeyed, -⟩ := h.keyed
  rw [(hkeyed.congr hconfig).settle_eq, store, h.production, h.workspace, if_pos hkey]
  rfl

/-- The event comes to a result with its key and leaves a row under it. -/
theorem settle_grown (h : Deliverable env ws s a key) (hgrown : Grown ws s st.1 keys) :
    ∃ x, settle env a.1 st.1 a.2 = .ok x ∧ x.verdict.eventKey = some key ∧
      x.verdict.status ≠ .rejected ∧ x.verdict.renders = true ∧
      Grown ws s (x.persisted.apply a.1.principal.workspaceId st).1 (insert key keys) := by
  obtain ⟨adm, dep, hkeyed, hvalues⟩ := h.keyed
  have hkeyed' := hkeyed.congr hgrown.config
  by_cases hkey : hasEvent st.1 ws key = true
  · have hsettle := h.settle_stored hgrown.config hkey
    refine ⟨_, hsettle, rfl, by simp [duplicateVerdict], ?_, hgrown.add_stored hkey⟩
    exact hkeyed'.store_renders (hkeyed'.settle_eq.symm.trans hsettle)
  · have hnew := eq_false_of_ne_true hkey
    have hnotOld : ¬ hasEvent s ws key = true := fun hold => hkey ((hgrown.stored key).2 (.inl hold))
    obtain ⟨row, hrow⟩ := hvalues.resolve_left hnotOld
    have hsettle : settle env a.1 st.1 a.2 =
        .ok ⟨acceptedVerdict key, .event key adm.occurredAt row⟩ := by
      rw [hkeyed'.settle_eq, store, h.production, h.workspace, if_neg hkey, hrow]
      rfl
    refine ⟨_, hsettle, rfl, by simp [acceptedVerdict], ?_, ?_⟩
    · exact hkeyed'.store_renders (hkeyed'.settle_eq.symm.trans hsettle)
    · rw [h.workspace]
      exact hgrown.insert hnew _ _

end Deliverable

/-! ### Batches -/

theorem forall₂_resultsFrom {α : Type} (R : α → Verdict → Prop) {l : List α} {xs : List Settled}
    (h : List.Forall₂ (fun a x => R a x.verdict) l xs) (start : ℕ) :
    List.Forall₂ (fun a (r : EventResult) => R a r.toVerdict) l (resultsFrom start xs) := by
  induction h generalizing start with
  | nil => exact .nil
  | cons hx _ ih => exact .cons hx (ih (start + 1))

theorem batchAnswers_of_settleAll {intake : Intake} {subs : List Submission}
    {key : Intake × Submission → PyStr} {statuses : EventStatus → Prop} {xs : List Settled}
    (hseq : SequenceAhead st) (hlen : subs.length ≤ maxBatch)
    (hsettle : settleAll env intake st subs = (xs, none))
    (hrenders : ∀ x ∈ xs, x.verdict.renders = true)
    (h : List.Forall₂ (fun sub x => x.verdict.eventKey = some (key (intake, sub)) ∧
      statuses x.verdict.status) subs xs) :
    BatchAnswers key statuses (intake, subs) ((ingestEvents env intake subs).run st.1 st.2).1 ∧
      ((ingestEvents env intake subs).run st.1 st.2).2 =
        persistAll intake.principal.workspaceId xs st := by
  rw [run_ingestEvents hseq hlen, hsettle]
  refine ⟨⟨resultsFrom 0 xs, ?_, forall₂_resultsFrom (fun sub v =>
    v.eventKey = some (key (intake, sub)) ∧ statuses v.status) h 0⟩, rfl⟩
  simp only [requestOutcome, renderError_eq_none.2 hrenders]

section Batches

variable {key : Intake × Submission → PyStr} {intake : Intake}

theorem settleAll_grown {subs : List Submission} {keys : Set PyStr}
    (h : ∀ sub ∈ subs, Deliverable env ws s (intake, sub) (key (intake, sub)))
    (hgrown : Grown ws s st.1 keys) :
    ∃ xs, settleAll env intake st subs = (xs, none) ∧ (∀ x ∈ xs, x.verdict.renders = true) ∧
      List.Forall₂ (fun sub x => x.verdict.eventKey = some (key (intake, sub)) ∧
        x.verdict.status ≠ .rejected) subs xs ∧
      Grown ws s (persistAll intake.principal.workspaceId xs st).1
        (keys ∪ {k | ∃ sub ∈ subs, key (intake, sub) = k}) := by
  induction subs generalizing st keys with
  | nil =>
    refine ⟨[], rfl, by simp, .nil, ?_⟩
    simpa [persistAll] using hgrown
  | cons sub subs ih =>
    obtain ⟨x, hx, hkey, hstatus, hrenders, hgrown'⟩ :=
      (h sub List.mem_cons_self).settle_grown hgrown
    obtain ⟨xs, hxs, hall, hforall, hrest⟩ :=
      ih (fun sub' hsub' => h sub' (List.mem_cons_of_mem _ hsub')) hgrown'
    refine ⟨x :: xs, ?_, ?_, .cons ⟨hkey, hstatus⟩ hforall, ?_⟩
    · simp only [settleAll, hx, hxs]
    · exact List.forall_mem_cons.2 ⟨hrenders, hall⟩
    · have hkeys : keys ∪ {k | ∃ sub' ∈ sub :: subs, key (intake, sub') = k} =
          insert (key (intake, sub)) keys ∪ {k | ∃ sub' ∈ subs, key (intake, sub') = k} := by
        ext k
        simp only [Set.mem_union, Set.mem_insert_iff, Set.mem_ofPred_eq, List.mem_cons,
          exists_eq_or_imp, eq_comm (a := k)]
        tauto
      rw [hkeys]
      exact hrest

theorem settleAll_stored {subs : List Submission} (hconfig : SameConfig s st.1)
    (h : ∀ sub ∈ subs, Deliverable env ws s (intake, sub) (key (intake, sub)) ∧
      hasEvent st.1 ws (key (intake, sub)) = true) :
    settleAll env intake st subs =
      (subs.map fun sub => ⟨duplicateVerdict (key (intake, sub)), .nothing⟩, none) := by
  induction subs with
  | nil => rfl
  | cons sub subs ih =>
    obtain ⟨hsub, hstored⟩ := h sub List.mem_cons_self
    have hrest := ih fun sub' hsub' => h sub' (List.mem_cons_of_mem _ hsub')
    simp only [settleAll, hsub.settle_stored hconfig hstored, Persisted.apply, hrest,
      List.map_cons]

theorem persistAll_nothing (ws : ℕ) {xs : List Settled} (h : ∀ x ∈ xs, x.persisted = .nothing)
    (st : Db × ℕ) : persistAll ws xs st = st := by
  induction xs with
  | nil => rfl
  | cons x xs ih =>
    simp only [persistAll, List.foldl_cons, h x List.mem_cons_self, Persisted.apply]
    exact ih fun x' hx' => h x' (List.mem_cons_of_mem _ hx')

/-- The first delivery answers every event and stores every key. -/
theorem runBatches_grown {batches : List Batch} {keys : Set PyStr} (hseq : SequenceAhead st)
    (hlen : ∀ b ∈ batches, b.2.length ≤ maxBatch)
    (h : ∀ a ∈ arrivals batches, Deliverable env ws s a (key a)) (hgrown : Grown ws s st.1 keys) :
    List.Forall₂ (BatchAnswers key (· ≠ .rejected)) batches (outcomes env batches st) ∧
      SequenceAhead (runBatches env batches st) ∧
      Grown ws s (runBatches env batches st).1 (keys ∪ {k | ∃ a ∈ arrivals batches, key a = k}) := by
  induction batches generalizing st keys with
  | nil => exact ⟨.nil, hseq, by simpa [arrivals, runBatches] using hgrown⟩
  | cons b batches ih =>
    obtain ⟨intake, subs⟩ := b
    have hfirst : ∀ sub ∈ subs, Deliverable env ws s (intake, sub) (key (intake, sub)) := by
      intro sub hsub
      apply h
      simp only [arrivals, List.flatMap_cons, List.mem_append, List.mem_map]
      exact .inl ⟨sub, hsub, rfl⟩
    obtain ⟨xs, hxs, hrenders, hforall, hgrown'⟩ := settleAll_grown hfirst hgrown
    obtain ⟨hanswers, hpersist⟩ : BatchAnswers key (· ≠ .rejected) (intake, subs)
        ((ingestEvents env intake subs).run st.1 st.2).1 ∧ _ :=
      batchAnswers_of_settleAll hseq (hlen _ List.mem_cons_self) hxs hrenders hforall
    rw [← hpersist] at hgrown'
    have hseq' : SequenceAhead ((ingestEvents env intake subs).run st.1 st.2).2 := by
      rw [hpersist]
      exact hseq.persistAll _ _
    obtain ⟨hrest, hseq'', hgrown''⟩ := ih hseq' (fun b hb => hlen b (List.mem_cons_of_mem _ hb))
      (fun a ha => h a (by
        simp only [arrivals, List.flatMap_cons, List.mem_append]
        exact .inr ha)) hgrown'
    refine ⟨.cons hanswers hrest, hseq'', ?_⟩
    have hkeys : keys ∪ {k | ∃ a ∈ arrivals ((intake, subs) :: batches), key a = k} =
        keys ∪ {k | ∃ sub ∈ subs, key (intake, sub) = k} ∪
          {k | ∃ a ∈ arrivals batches, key a = k} := by
      ext k
      simp only [arrivals, List.flatMap_cons, List.mem_append, List.mem_map, Set.mem_union,
        Set.mem_ofPred_eq, or_and_right, exists_or, or_assoc]
      simp only [exists_exists_and_eq_and]
    rw [hkeys]
    exact hgrown''

/-- A redelivery answers `duplicate` and changes nothing. -/
theorem runBatches_stored {batches : List Batch} (hseq : SequenceAhead st)
    (hconfig : SameConfig s st.1) (hlen : ∀ b ∈ batches, b.2.length ≤ maxBatch)
    (h : ∀ a ∈ arrivals batches, Deliverable env ws s a (key a) ∧ hasEvent st.1 ws (key a) = true) :
    List.Forall₂ (BatchAnswers key (· = .duplicate)) batches (outcomes env batches st) ∧
      runBatches env batches st = st := by
  induction batches with
  | nil => exact ⟨.nil, rfl⟩
  | cons b batches ih =>
    obtain ⟨intake, subs⟩ := b
    have hfirst : ∀ sub ∈ subs, Deliverable env ws s (intake, sub) (key (intake, sub)) ∧
        hasEvent st.1 ws (key (intake, sub)) = true := by
      intro sub hsub
      apply h
      simp only [arrivals, List.flatMap_cons, List.mem_append, List.mem_map]
      exact .inl ⟨sub, hsub, rfl⟩
    have hxs := settleAll_stored hconfig hfirst
    obtain ⟨hanswers, hpersist⟩ : BatchAnswers key (· = .duplicate) (intake, subs)
        ((ingestEvents env intake subs).run st.1 st.2).1 ∧ _ := by
      refine batchAnswers_of_settleAll hseq (hlen _ List.mem_cons_self) hxs ?_ ?_
      · intro x hx
        obtain ⟨sub, hsub, rfl⟩ := List.mem_map.1 hx
        obtain ⟨adm, dep, hkeyed, -⟩ := (hfirst sub hsub).1.keyed
        have hkey := key_encodable hkeyed.keyed
        simp [Verdict.renders, Verdict.compliant, Verdict.encodable, Verdict.texts,
          duplicateVerdict, hkey]
      · rw [List.forall₂_map_right_iff]
        exact List.forall₂_same.2 fun sub _ => ⟨rfl, rfl⟩
    rw [persistAll_nothing _ (by simp)] at hpersist
    obtain ⟨hrest, hsame⟩ := ih (fun b hb => hlen b (List.mem_cons_of_mem _ hb)) fun a ha =>
      h a (by
        simp only [arrivals, List.flatMap_cons, List.mem_append]
        exact .inr ha)
    simp only [outcomes, runBatches, hpersist]
    exact ⟨.cons hanswers hrest, hsame⟩

/-- Events of one workspace that are accepted or duplicates at these rows,
delivered in any order and batching: every event is answered, each new key has
one row, old rows stay; and delivered again, whole or in part, they are all
duplicates under the same keys and every row stays. -/
theorem redelivery {L : List (Intake × Submission)} (hseq : SequenceAhead (s, n))
    (hL : ∀ a ∈ L, a.1.principal.workspaceId = ws ∧ a.1.principal.isTest = false ∧
      Accepts env (s, n) a) :
    ∃ key : Intake × Submission → PyStr, ∀ first : List Batch,
      (∀ b ∈ first, b.2.length ≤ maxBatch) → (arrivals first).Perm L →
        List.Forall₂ (BatchAnswers key (· ≠ .rejected)) first (outcomes env first (s, n)) ∧
        Grown ws s (runBatches env first (s, n)).1 {k | ∃ a ∈ L, key a = k} ∧
        ∀ again : List Batch, (∀ b ∈ again, b.2.length ≤ maxBatch) →
          (∀ a ∈ arrivals again, a ∈ L) →
            List.Forall₂ (BatchAnswers key (· = .duplicate)) again
              (outcomes env again (runBatches env first (s, n))) ∧
            runBatches env again (runBatches env first (s, n)) = runBatches env first (s, n) := by
  have hkey : ∀ a, ∃ key, a ∈ L → Deliverable env ws s a key := by
    intro a
    by_cases ha : a ∈ L
    · obtain ⟨rfl, hproduction, haccepts⟩ := hL a ha
      obtain ⟨key, h⟩ := deliverable_of_accepts hseq hproduction haccepts
      exact ⟨key, fun _ => h⟩
    · exact ⟨[], fun h => absurd h ha⟩
  choose key hkey using hkey
  refine ⟨key, fun first hlen hperm => ?_⟩
  have hfirst : ∀ a ∈ arrivals first, Deliverable env ws s a (key a) :=
    fun a ha => hkey a (hperm.subset ha)
  obtain ⟨hanswers, hseq', hgrown⟩ := runBatches_grown hseq hlen hfirst (.refl ws s)
  have hkeys : (∅ ∪ {k | ∃ a ∈ arrivals first, key a = k} : Set PyStr) = {k | ∃ a ∈ L, key a = k} := by
    ext k
    simp [hperm.mem_iff]
  rw [hkeys] at hgrown
  refine ⟨hanswers, hgrown, fun again hagain hsub => ?_⟩
  refine runBatches_stored hseq' hgrown.config hagain fun a ha => ⟨hkey a (hsub a ha), ?_⟩
  exact (hgrown.stored _).2 (.inr ⟨a, hsub a ha, rfl⟩)

end Batches

/-- The vendor's and the customer's meter event, which share a key. -/
def meterArrivals : List (Intake × Submission) := [vendorMeter.arrival, customerMeter.arrival]

theorem redelivery_meterArrivals : ∃ key : Intake × Submission → PyStr,
    List.Forall₂ (BatchAnswers key (· = .duplicate)) meterBatches
      (outcomes sampleEnv meterBatches (runBatches sampleEnv meterBatches sampleRows)) := by
  have haccepts : ∀ a ∈ meterArrivals, a.1.principal.workspaceId = 1 ∧
      a.1.principal.isTest = false ∧ Accepts sampleEnv (sampleRows.1, 0) a := by
    intro a ha
    simp only [meterArrivals, List.mem_cons, List.not_mem_nil, or_false] at ha
    rcases ha with rfl | rfl
    · exact ⟨rfl, rfl, .accepted, by decide +kernel, by decide⟩
    · exact ⟨rfl, rfl, .accepted, by decide +kernel, by decide⟩
  obtain ⟨key, h⟩ := redelivery sequenceAhead_sampleRows haccepts
  obtain ⟨-, -, hagain⟩ := h meterBatches (by decide) (.refl _)
  exact ⟨key, (hagain meterBatches (by decide) fun a ha => ha).1⟩

end TrueFigure.Server
