import TrueFigure.Server.RosterDirectory

/-!
# Roster batches

A request stores its items one after the other. The per-item results of a batch, item
by item and when the batch is repeated, hold exactly for batches that the database
takes up to their refusals and whose refusals do not move.
-/
namespace TrueFigure.Server

open TrueFigure.Library TrueFigure.Python

def RosterIdentifier.text (ident : RosterIdentifier) : PyStr := ident.ns ++ py ":" ++ ident.value

namespace Directory

def after (conn : RosterConnection) (d : Directory) (users : List RosterUser) : Directory :=
  users.foldl (fun d item => d.settle conn item) d

def result (d : Directory) (item : RosterUser) : RosterResult :=
  ⟨item.userRef, (d.firstForeign item).map fun ident => (takenError ident).toErrorObject⟩

def results (conn : RosterConnection) (d : Directory) : List RosterUser → List RosterResult
  | [] => []
  | item :: items => d.result item :: results conn (d.settle conn item) items

/-- The database can take every item of a batch, each at its turn. -/
def StorableAll (conn : RosterConnection) (ws : ℕ) (d : Directory) : List RosterUser → Prop
  | [] => True
  | item :: items => d.Storable conn ws item ∧ StorableAll conn ws (d.settle conn item) items

/-- What an item of a batch is refused for at its turn, it is refused for in this
directory too. -/
def RefusedAlike (conn : RosterConnection) (final d : Directory) : List RosterUser → Prop
  | [] => True
  | item :: items =>
    (∀ ident, d.firstForeign item = some ident →
      (final.firstForeign item).map RosterIdentifier.text = some ident.text) ∧
    RefusedAlike conn final (d.settle conn item) items

variable {conn : RosterConnection} {ws : ℕ} {d : Directory} {item : RosterUser}
  {pre post users : List RosterUser} {ref ns value : PyStr}

theorem after_cons : d.after conn (item :: users) = (d.settle conn item).after conn users := rfl

theorem after_append : d.after conn (pre ++ post) = (d.after conn pre).after conn post :=
  List.foldl_append

theorem results_append :
    d.results conn (pre ++ post) = d.results conn pre ++ (d.after conn pre).results conn post := by
  induction pre generalizing d with
  | nil => rfl
  | cons item pre ih => exact congrArg (d.result item :: ·) ih

theorem storableAll_append : d.StorableAll conn ws (pre ++ post) ↔
    d.StorableAll conn ws pre ∧ (d.after conn pre).StorableAll conn ws post := by
  induction pre generalizing d with
  | nil => exact (and_iff_right trivial).symm
  | cons item pre ih =>
    rw [List.cons_append, StorableAll, StorableAll, ih, and_assoc, after_cons]

theorem userRef_results : (d.results conn users).map RosterResult.userRef =
    users.map RosterUser.userRef := by
  induction users generalizing d with
  | nil => rfl
  | cons item users ih => exact congrArg (item.userRef :: ·) ih

theorem settle_of_foreign {ident : RosterIdentifier} (h : d.firstForeign item = some ident) :
    d.settle conn item = d := by
  unfold settle
  rw [h]
  rfl

theorem settle_of_free (h : d.firstForeign item = none) :
    d.settle conn item = d.upsert conn item := by
  unfold settle
  rw [h]
  rfl

theorem length_results : (d.results conn users).length = users.length := by
  induction users generalizing d with
  | nil => rfl
  | cons item users ih => exact congrArg (· + 1) ih

theorem getElem?_results : (d.results conn (pre ++ item :: post))[pre.length]? =
    some ((d.after conn pre).result item) := by
  rw [results_append, List.getElem?_append_right length_results.le, length_results, Nat.sub_self]
  rfl

/-! ### What an item changes -/

theorem owner_ownAll (idents : List RosterIdentifier) :
    (idents.foldl (fun d ident => d.own ref ident) d).owner ns value =
      if ∃ ident ∈ idents, ident.ns = ns ∧ ident.value = value then some ref
      else d.owner ns value := by
  induction idents generalizing d with
  | nil => simp
  | cons ident idents ih =>
    rw [List.foldl_cons, ih]
    unfold own
    by_cases hrest : ∃ ident ∈ idents, ident.ns = ns ∧ ident.value = value
    · simp [hrest]
    · simp [hrest]

theorem people_ownAll (idents : List RosterIdentifier) :
    (idents.foldl (fun d ident => d.own ref ident) d).people = d.people := by
  induction idents generalizing d with
  | nil => rfl
  | cons ident idents ih =>
    rw [List.foldl_cons, ih]
    rfl

theorem owner_upsert {row : UserRow} (hvalues : userValues conn 0 item = .ok row) :
    (d.upsert conn item).owner ns value =
      if ∃ ident ∈ item.identifiers, ident.ns = ns ∧ ident.value = value then some item.userRef
      else d.owner ns value := by
  unfold upsert
  rw [hvalues]
  exact owner_ownAll _

theorem people_upsert {row : UserRow} (hvalues : userValues conn 0 item = .ok row) :
    (d.upsert conn item).people = Function.update d.people item.userRef (some { row with
      id := 0
      userStatus := (d.people item.userRef).elim .active UserRow.userStatus }) := by
  unfold upsert
  rw [hvalues]
  exact people_ownAll _

theorem owner_of_listed (hfree : d.firstForeign item = none) {ident : RosterIdentifier}
    (hlisted : ident ∈ item.identifiers) {owner : PyStr}
    (howner : d.owner ident.ns ident.value = some owner) : owner = item.userRef := by
  have hnot := List.find?_eq_none.1 hfree ident hlisted
  unfold foreign at hnot
  rw [howner] at hnot
  simpa using hnot

theorem owner_settle {owner : PyStr} (h : d.owner ns value = some owner) :
    (d.settle conn item).owner ns value = some owner := by
  cases hfirst : d.firstForeign item with
  | some ident => rw [settle_of_foreign hfirst, h]
  | none =>
    rw [settle_of_free hfirst]
    cases hvalues : userValues conn 0 item with
    | error e =>
      unfold upsert
      rw [hvalues]
      exact h
    | ok row =>
      rw [owner_upsert hvalues]
      split_ifs with hlisted
      · obtain ⟨ident, hmem, rfl, rfl⟩ := hlisted
        rw [owner_of_listed hfirst hmem h]
      · exact h

theorem owner_after {owner : PyStr} (h : d.owner ns value = some owner) :
    (d.after conn users).owner ns value = some owner := by
  induction users generalizing d with
  | nil => exact h
  | cons item users ih => exact ih (owner_settle h)

/-- The status of a user never changes, and a new one is active. -/
theorem status_settle (ref : PyStr) :
    ((d.settle conn item).people ref).elim .active UserRow.userStatus =
      (d.people ref).elim .active UserRow.userStatus := by
  unfold settle
  split_ifs
  · cases hvalues : userValues conn 0 item with
    | error e =>
      unfold upsert
      rw [hvalues]
    | ok row =>
      rw [people_upsert hvalues]
      by_cases href : ref = item.userRef
      · rw [href, Function.update_self]
        rfl
      · rw [Function.update_of_ne href]
  · rfl

theorem status_after (ref : PyStr) :
    ((d.after conn users).people ref).elim .active UserRow.userStatus =
      (d.people ref).elim .active UserRow.userStatus := by
  induction users generalizing d with
  | nil => rfl
  | cons item users ih => exact ih.trans (status_settle ref)

theorem isSome_settle (h : (d.people ref).isSome) : ((d.settle conn item).people ref).isSome := by
  unfold settle
  split_ifs
  · cases hvalues : userValues conn 0 item with
    | error e =>
      unfold upsert
      rw [hvalues]
      exact h
    | ok row =>
      rw [people_upsert hvalues]
      by_cases href : ref = item.userRef
      · rw [href, Function.update_self]
        rfl
      · rwa [Function.update_of_ne href]
  · exact h

theorem isSome_after (h : (d.people ref).isSome) : ((d.after conn users).people ref).isSome := by
  induction users generalizing d with
  | nil => exact h
  | cons item users ih => exact ih (isSome_settle h)

/-! ### The batch again -/

theorem bindable_of_foreign {e : Directory} {idents : List RosterIdentifier}
    (hforeign : ∀ ident, d.foreign ref ident = true → e.foreign ref ident = true)
    (hnone : ∀ ns value, e.owner ns value = none → d.owner ns value = none)
    (h : d.Bindable conn ws ref idents) : e.Bindable conn ws ref idents := by
  induction idents with
  | nil => trivial
  | cons ident idents ih =>
    obtain ⟨htext, hrest⟩ := h
    refine ⟨htext, fun hfree => ?_⟩
    have hbefore : d.foreign ref ident = false := by
      by_contra htrue
      rw [hforeign ident (by simpa using htrue)] at hfree
      cases hfree
    obtain ⟨hindex, hidents⟩ := hrest hbefore
    exact ⟨fun howner => hindex (hnone _ _ howner), ih hidents⟩

/-- A directory that knows at least the owners and users another one comes to. -/
structure Covers (e final : Directory) : Prop where
  owner : e.owner = final.owner
  people : ∀ ref, (final.people ref).isSome → (e.people ref).isSome

variable {e : Directory}

theorem Covers.foreign (h : e.Covers (d.after conn users)) {ident : RosterIdentifier}
    (hforeign : d.foreign ref ident = true) : e.foreign ref ident = true := by
  obtain ⟨owner, howner, hne⟩ := (Option.any_eq_true _ _).1 hforeign
  unfold Directory.foreign
  rw [h.owner, owner_after howner]
  exact hne

/-- An item that is stored in the first place lists no foreign identifier later on. -/
theorem Covers.free (h : e.Covers (d.after conn (item :: users)))
    (hstorable : d.Storable conn ws item) (hfree : d.firstForeign item = none) :
    e.firstForeign item = none ∧ ∀ ident ∈ item.identifiers,
      e.owner ident.ns ident.value = some item.userRef := by
  obtain ⟨row, hvalues⟩ := hstorable.values
  have howned : ∀ ident ∈ item.identifiers, e.owner ident.ns ident.value = some item.userRef := by
    intro ident hident
    rw [h.owner, after_cons]
    refine owner_after ?_
    rw [settle_of_free hfree, owner_upsert hvalues, if_pos ⟨ident, hident, rfl, rfl⟩]
  refine ⟨List.find?_eq_none.2 fun ident hident => ?_, howned⟩
  unfold Directory.foreign
  rw [howned ident hident]
  simp

theorem Covers.refused (h : e.Covers (d.after conn users)) {ident : RosterIdentifier}
    (hfirst : d.firstForeign item = some ident) : ∃ ident', e.firstForeign item = some ident' := by
  refine Option.isSome_iff_exists.1 (List.find?_isSome.2 ⟨ident, ?_, ?_⟩)
  · exact List.mem_of_find?_eq_some hfirst
  · have hforeign := List.find?_some hfirst
    exact h.foreign hforeign

theorem Covers.storable (h : e.Covers (d.after conn users)) (hstorable : d.Storable conn ws item) :
    e.Storable conn ws item := by
  refine ⟨hstorable.values, fun hnone => hstorable.user ?_, ?_⟩
  · by_contra hsome
    have hthere := h.people item.userRef (isSome_after (Option.isSome_iff_ne_none.2 hsome))
    rw [hnone] at hthere
    cases hthere
  · refine bindable_of_foreign (fun ident => h.foreign) (fun ns value hnone => ?_)
      hstorable.identifiers
    by_contra hsome
    obtain ⟨owner, howner⟩ := Option.ne_none_iff_exists'.1 hsome
    rw [h.owner, owner_after howner] at hnone
    cases hnone

theorem Covers.settle (h : e.Covers (d.after conn (item :: users)))
    (hstorable : d.Storable conn ws item) :
    (e.settle conn item).Covers ((d.settle conn item).after conn users) := by
  refine ⟨?_, fun ref hsome => isSome_settle (h.people ref hsome)⟩
  rw [← after_cons, ← h.owner]
  cases hfirst : d.firstForeign item with
  | some ident =>
    obtain ⟨ident', hfirst'⟩ := h.refused hfirst
    rw [settle_of_foreign hfirst']
  | none =>
    obtain ⟨hfree, howned⟩ := h.free hstorable hfirst
    obtain ⟨row, hvalues⟩ := hstorable.values
    rw [settle_of_free hfree]
    funext ns value
    rw [owner_upsert hvalues]
    split_ifs with hlisted
    · obtain ⟨ident, hident, rfl, rfl⟩ := hlisted
      exact (howned ident hident).symm
    · rfl

theorem Covers.storableAll (h : e.Covers (d.after conn users))
    (hall : d.StorableAll conn ws users) :
    e.StorableAll conn ws users ∧ (e.after conn users).owner = e.owner := by
  induction users generalizing d e with
  | nil => exact ⟨trivial, rfl⟩
  | cons item users ih =>
    obtain ⟨hitem, hrest⟩ := hall
    have hsettle := h.settle hitem
    obtain ⟨hstorable, howner⟩ := ih hsettle hrest
    refine ⟨⟨h.storable hitem, hstorable⟩, ?_⟩
    rw [after_cons, howner, hsettle.owner, ← after_cons, h.owner]

/-- The columns of a user come to the same, or nobody sets them. -/
theorem Covers.people_after (h : e.Covers (d.after conn users))
    (hall : d.StorableAll conn ws users) (ref : PyStr)
    (hstatus : (e.people ref).elim .active UserRow.userStatus =
      (d.people ref).elim .active UserRow.userStatus) :
    (e.after conn users).people ref = (d.after conn users).people ref ∨
      ((e.after conn users).people ref = e.people ref ∧
        (d.after conn users).people ref = d.people ref) := by
  induction users generalizing d e with
  | nil => exact .inr ⟨rfl, rfl⟩
  | cons item users ih =>
    obtain ⟨hitem, hrest⟩ := hall
    have hagain := ih (h.settle hitem) hrest
      ((status_settle ref).trans (hstatus.trans (status_settle ref).symm))
    rw [after_cons, after_cons]
    have hhead : (e.settle conn item).people ref = (d.settle conn item).people ref ∨
        ((e.settle conn item).people ref = e.people ref ∧
          (d.settle conn item).people ref = d.people ref) := by
      cases hfirst : d.firstForeign item with
      | some ident =>
        obtain ⟨ident', hfirst'⟩ := h.refused hfirst
        rw [settle_of_foreign hfirst, settle_of_foreign hfirst']
        exact .inr ⟨rfl, rfl⟩
      | none =>
        obtain ⟨row, hvalues⟩ := hitem.values
        rw [settle_of_free hfirst, settle_of_free (h.free hitem hfirst).1, people_upsert hvalues,
          people_upsert hvalues]
        by_cases href : ref = item.userRef
        · left
          rw [← href, Function.update_self, Function.update_self, hstatus]
        · right
          exact ⟨Function.update_of_ne href _ _, Function.update_of_ne href _ _⟩
    rcases hagain with hsame | ⟨hkept, hkept'⟩
    · exact .inl hsame
    · rcases hhead with hsame | ⟨hhead, hhead'⟩
      · exact .inl (by rw [hkept, hkept', hsame])
      · exact .inr ⟨hkept.trans hhead, hkept'.trans hhead'⟩

/-- Repeating a batch leaves the directory as it is. -/
theorem after_again (hall : d.StorableAll conn ws users) :
    (d.after conn users).after conn users = d.after conn users := by
  have hcovers : (d.after conn users).Covers (d.after conn users) := ⟨rfl, fun _ h => h⟩
  refine Directory.ext (funext fun ref => ?_) (hcovers.storableAll hall).2
  rcases hcovers.people_after hall ref (status_after ref) with hsame | ⟨hkept, -⟩
  · exact hsame
  · exact hkept

theorem takenError_inj {ident ident' : RosterIdentifier} :
    (takenError ident).toErrorObject = (takenError ident').toErrorObject ↔
      ident.text = ident'.text := by
  constructor
  · intro h
    have hdetail := congrArg ErrorObject.detail h
    have htext : ident.text ++ py " owned by another user" =
        ident'.text ++ py " owned by another user" := Option.some.inj hdetail
    exact List.append_cancel_right htext
  · intro h
    have htaken : takenError ident = takenError ident' := by
      unfold takenError
      have htext : ident.ns ++ py ":" ++ ident.value = ident'.ns ++ py ":" ++ ident'.value := h
      rw [htext]
    rw [htaken]

theorem firstForeign_congr {final : Directory} (h : e.owner = final.owner) (item : RosterUser) :
    final.firstForeign item = e.firstForeign item := by
  unfold firstForeign Directory.foreign
  rw [h]

/-- The result of an item again is the same exactly when its refusal does not move. -/
theorem Covers.result_eq_iff (h : e.Covers (d.after conn (item :: users)))
    (hstorable : d.Storable conn ws item) :
    e.result item = d.result item ↔ ∀ ident, d.firstForeign item = some ident →
      (e.firstForeign item).map RosterIdentifier.text = some ident.text := by
  unfold result
  cases hfirst : d.firstForeign item with
  | none =>
    rw [(h.free hstorable hfirst).1]
    exact ⟨fun _ _ => nofun, fun _ => rfl⟩
  | some ident =>
    obtain ⟨ident', hfirst'⟩ := h.refused hfirst
    rw [hfirst']
    simp only [Option.map_some, RosterResult.mk.injEq, true_and, Option.some.injEq, forall_eq']
    exact takenError_inj

/-- The results of the batch again are the same exactly when no refusal moves. -/
theorem Covers.results_eq_iff {final : Directory} (hfinal : final = d.after conn users)
    (h : e.Covers final) (hall : d.StorableAll conn ws users) :
    e.results conn users = d.results conn users ↔ RefusedAlike conn final d users := by
  induction users generalizing d e with
  | nil => exact ⟨fun _ => trivial, fun _ => rfl⟩
  | cons item users ih =>
    obtain ⟨hitem, hrest⟩ := hall
    subst hfinal
    have hsettle := h.settle hitem
    unfold results RefusedAlike
    rw [List.cons.injEq, ih after_cons hsettle hrest, h.result_eq_iff hitem,
      firstForeign_congr h.owner item]

end Directory

/-! ### The request -/

variable {conn : RosterConnection} {ws n : ℕ} {s : Db} {users : List RosterUser}
  {results : List RosterResult}

/-- What a batch that is stored leaves. -/
structure BatchStored (conn : RosterConnection) (ws : ℕ) (users : List RosterUser) (s s' : Db)
    (n' : ℕ) : Prop where
  directory : directoryOf ws s' = (directoryOf ws s).after conn users
  ready : RosterReady s' n'
  ids : KeepsIds s s'
  owners : KeepsOwners s s'
  others : ∀ k, (∀ ref, k ≠ .user ws ref) → (∀ ns value, k ≠ .userIdentifier ws ns value) →
    s'.lookup k = s.lookup k

theorem BatchStored.cons {item : RosterUser} {s₁ s' : Db} {n' : ℕ}
    (hitem : ItemStored conn ws item s s₁ n)
    (hfree : (directoryOf ws s).firstForeign item = none)
    (h : BatchStored conn ws users s₁ s' n') : BatchStored conn ws (item :: users) s s' n' where
  directory := by
    rw [h.directory, hitem.directory, Directory.after_cons, Directory.settle_of_free hfree]
  ready := h.ready
  ids := hitem.ids.trans h.ids
  owners ws' ns value row hrow := h.owners ws' ns value row (hitem.owners ws' ns value row hrow)
  others k huser hident := (h.others k huser hident).trans (hitem.others k huser hident)

/-- A request refines the batch of the directory, or raises. -/
theorem run_upsertRosterFrom (users : List RosterUser) (results : List RosterResult)
    (h : RosterReady s n) :
    ((directoryOf ws s).StorableAll conn ws users → ∃ s' n',
      (upsertRosterFrom conn ws users results).run s n =
        (.roster (results ++ (directoryOf ws s).results conn users), s', n') ∧
      BatchStored conn ws users s s' n') ∧
    (¬ (directoryOf ws s).StorableAll conn ws users → ∃ e s' n',
      (upsertRosterFrom conn ws users results).run s n = (.raised e, s', n')) := by
  induction users generalizing s n results with
  | nil =>
    refine ⟨fun _ => ⟨s, n, ?_, rfl, h, .refl s, fun _ _ _ _ hrow => hrow, fun _ _ _ => rfl⟩,
      fun hnot => absurd trivial hnot⟩
    rw [Directory.results, List.append_nil]
    rfl
  | cons item users ih =>
    obtain ⟨hstorable, hnot⟩ := @eval_upsertRosterUser conn s n ws item h
    unfold upsertRosterFrom Directory.StorableAll Directory.results
    rw [Proc.run]
    by_cases hitem : (directoryOf ws s).Storable conn ws item
    swap
    · obtain ⟨e, he, heval⟩ := hnot hitem
      rw [heval]
      refine ⟨fun hall => absurd hall.1 hitem, fun _ => ⟨e, s, n + 1, ?_⟩⟩
      cases e with
      | tfError err => exact absurd rfl (he err)
      | _ => rfl
    have hresult := hstorable hitem
    cases hfirst : (directoryOf ws s).firstForeign item with
    | some ident =>
      rw [hfirst] at hresult
      rw [hresult, Directory.settle_of_foreign hfirst]
      have hready : RosterReady s (n + 1) :=
        ⟨h.keys, fun ws' ref u hu => Nat.lt_succ_of_lt (h.below ws' ref u hu)⟩
      obtain ⟨hstored, hraised⟩ := ih (results ++ [(directoryOf ws s).result item]) hready
      have hone : (directoryOf ws s).result item =
          ⟨item.userRef, some (takenError ident).toErrorObject⟩ := by
        unfold Directory.result
        rw [hfirst]
        rfl
      rw [hone] at hstored hraised
      refine ⟨fun hall => ?_, fun hnotAll => hraised fun hall => hnotAll ⟨hitem, hall⟩⟩
      obtain ⟨s', n', hrun, hbatch⟩ := hstored hall.2
      refine ⟨s', n', ?_, ?_, hbatch.ready, hbatch.ids, hbatch.owners, hbatch.others⟩
      · rw [List.append_assoc, List.singleton_append] at hrun
        rw [hone]
        exact hrun
      · rw [hbatch.directory, Directory.after_cons, Directory.settle_of_foreign hfirst]
    | none =>
      rw [hfirst] at hresult
      obtain ⟨s₁, heval, hstoredItem⟩ := hresult
      rw [heval, Directory.settle_of_free hfirst, ← hstoredItem.directory]
      obtain ⟨hstored, hraised⟩ := ih (results ++ [(directoryOf ws s).result item])
        hstoredItem.ready
      have hone : (directoryOf ws s).result item = ⟨item.userRef, none⟩ := by
        unfold Directory.result
        rw [hfirst]
        rfl
      rw [hone] at hstored hraised
      refine ⟨fun hall => ?_, fun hnotAll => hraised fun hall => hnotAll ⟨hitem, hall⟩⟩
      obtain ⟨s', n', hrun, hbatch⟩ := hstored hall.2
      refine ⟨s', n', ?_, hbatch.cons hstoredItem hfirst⟩
      rw [List.append_assoc, List.singleton_append] at hrun
      rw [hone]
      exact hrun

/-- What a request answers, with the rows and the sequence it leaves. -/
def rosterRequest (conn : RosterConnection) (ws : ℕ) (users : List RosterUser) (s : Db) (n : ℕ) :
    Outcome × Db × ℕ :=
  (upsertRoster conn ws users).run s n

def rosterAfter (conn : RosterConnection) (ws : ℕ) (users : List RosterUser) (s : Db) (n : ℕ) : Db :=
  (rosterRequest conn ws users s n).2.1

/-- A request gives per-item results. -/
structure PerItem (conn : RosterConnection) (ws : ℕ) (users : List RosterUser) (s : Db) (n : ℕ) :
    Prop where
  /-- It completes with one result for each user, in order. -/
  completes : ∃ results, (rosterRequest conn ws users s n).1 = .roster results ∧
    results.map RosterResult.userRef = users.map RosterUser.userRef
  /-- An item reported as upserted has replaced its user's columns and owns its identifiers. -/
  upserted : ∀ pre item post results, users = pre ++ item :: post →
    (rosterRequest conn ws users s n).1 = .roster results →
    results[pre.length]? = some ⟨item.userRef, none⟩ →
      directoryOf ws (rosterAfter conn ws (pre ++ [item]) s n) =
        (directoryOf ws (rosterAfter conn ws pre s n)).upsert conn item
  /-- An item reported as rejected has left the rows as they were, and the others come
  to the same without it. -/
  rejected : ∀ pre item post results error, users = pre ++ item :: post →
    (rosterRequest conn ws users s n).1 = .roster results →
    results[pre.length]? = some ⟨item.userRef, some error⟩ →
      rosterAfter conn ws (pre ++ [item]) s n = rosterAfter conn ws pre s n ∧
        (rosterRequest conn ws (pre ++ post) s n).1 = .roster (results.eraseIdx pre.length) ∧
          directoryOf ws (rosterAfter conn ws (pre ++ post) s n) =
            directoryOf ws (rosterAfter conn ws users s n)
  /-- The whole batch again leaves the rows as they are and answers the same. -/
  repeated : ∀ results s' n', rosterRequest conn ws users s n = (.roster results, s', n') →
    (rosterRequest conn ws users s' n').1 = .roster results ∧
      ∀ k, (rosterAfter conn ws users s' n').lookup k = s'.lookup k

theorem run_append {pre post : List RosterUser} {rs : List RosterResult} {s₁ : Db} {n₁ : ℕ}
    (hpre : (upsertRosterFrom conn ws pre results).run s n = (.roster rs, s₁, n₁)) :
    (upsertRosterFrom conn ws (pre ++ post) results).run s n =
      (upsertRosterFrom conn ws post rs).run s₁ n₁ := by
  induction pre generalizing results s n with
  | nil =>
    cases hpre
    rfl
  | cons item pre ih =>
    rw [upsertRosterFrom, Proc.run] at hpre
    rw [List.cons_append, upsertRosterFrom, Proc.run]
    rcases heval : (upsertRosterUser conn ws item).eval s n with ⟨e | ⟨a, s₂⟩, n₂⟩ <;>
      rw [heval] at hpre
    · cases e with
      | tfError err => exact ih hpre
      | _ => cases hpre
    · exact ih hpre

/-- Both stores say the same of the roster of the workspace, under the same ids. -/
theorem lookup_eq_of_directory {s' : Db} {n' : ℕ} (hs : RosterKeys s)
    (hbatch : BatchStored conn ws users s s' n') (hsame : directoryOf ws s' = directoryOf ws s)
    (k : RowKey) : s'.lookup k = s.lookup k := by
  by_cases huser : ∃ ref, k = .user ws ref
  · obtain ⟨ref, rfl⟩ := huser
    have hpeople : (s'.lookup (.user ws ref)).map UserRow.anonymous =
        (s.lookup (.user ws ref)).map UserRow.anonymous :=
      congrFun (congrArg Directory.people hsame) ref
    cases hrow : s.lookup (.user ws ref) with
    | none =>
      rw [hrow] at hpeople
      exact Option.map_eq_none_iff.1 hpeople
    | some u =>
      obtain ⟨u', hu', hid⟩ := hbatch.ids ws ref u hrow
      rw [hrow, hu'] at hpeople
      have hcolumns : u'.anonymous = u.anonymous := Option.some.inj hpeople
      rw [hu']
      congr 1
      cases u
      cases u'
      simp only [UserRow.anonymous, UserRow.mk.injEq, true_and] at hcolumns hid
      simp only [UserRow.mk.injEq]
      exact ⟨hid, hcolumns⟩
  by_cases hident : ∃ ns value, k = .userIdentifier ws ns value
  · obtain ⟨ns, value, rfl⟩ := hident
    cases hrow : s.lookup (.userIdentifier ws ns value) with
    | none =>
      rw [← owner_eq_none hs, ← hsame] at hrow
      exact (owner_eq_none hbatch.ready.keys).1 hrow
    | some row => exact hbatch.owners ws ns value row hrow
  · push Not at huser hident
    exact hbatch.others k huser hident

theorem rosterRequest_eq (h : RosterReady s n)
    (hall : (directoryOf ws s).StorableAll conn ws users) :
    (rosterRequest conn ws users s n).1 = .roster ((directoryOf ws s).results conn users) ∧
      ∃ n', BatchStored conn ws users s (rosterAfter conn ws users s n) n' := by
  obtain ⟨s', n', hrun, hbatch⟩ := (run_upsertRosterFrom users [] h).1 hall
  have hrequest : rosterRequest conn ws users s n =
      (.roster ((directoryOf ws s).results conn users), s', n') := hrun
  unfold rosterAfter
  rw [hrequest]
  exact ⟨rfl, n', hbatch⟩

theorem rosterRequest_again {s' : Db} {n' : ℕ}
    (hall : (directoryOf ws s).StorableAll conn ws users)
    (hbatch : BatchStored conn ws users s s' n') :
    (rosterRequest conn ws users s' n').1 =
        .roster (((directoryOf ws s).after conn users).results conn users) ∧
      ∀ k, (rosterAfter conn ws users s' n').lookup k = s'.lookup k := by
  have hcovers : ((directoryOf ws s).after conn users).Covers
      ((directoryOf ws s).after conn users) := ⟨rfl, fun _ hsome => hsome⟩
  have hstorable := (hcovers.storableAll hall).1
  rw [← hbatch.directory] at hstorable
  obtain ⟨hanswer, n'', hagain⟩ := rosterRequest_eq hbatch.ready hstorable
  refine ⟨?_, lookup_eq_of_directory hbatch.ready.keys hagain ?_⟩
  · rw [← hbatch.directory]
    exact hanswer
  · rw [hagain.directory, hbatch.directory, Directory.after_again hall]

section Batch

variable {pre post : List RosterUser} {item : RosterUser}

/-- A refused item leaves the rows as the items before it have left them. -/
theorem rosterAfter_refused (h : RosterReady s n)
    (hall : (directoryOf ws s).StorableAll conn ws (pre ++ [item])) {ident : RosterIdentifier}
    (hfirst : ((directoryOf ws s).after conn pre).firstForeign item = some ident) :
    rosterAfter conn ws (pre ++ [item]) s n = rosterAfter conn ws pre s n := by
  obtain ⟨hpre, hitem, -⟩ := Directory.storableAll_append.1 hall
  obtain ⟨s₁, n₁, hrun, hbatch⟩ := (run_upsertRosterFrom pre [] h).1 hpre
  rw [← hbatch.directory] at hitem hfirst
  have heval := (eval_upsertRosterUser item hbatch.ready).1 hitem
  rw [hfirst] at heval
  have hone : ((upsertRosterFrom conn ws [item] ([] ++ (directoryOf ws s).results conn pre)).run
      s₁ n₁).2.1 = s₁ := by
    unfold upsertRosterFrom
    rw [Proc.run, heval]
    rfl
  unfold rosterAfter rosterRequest upsertRoster
  rw [run_append hrun, hone, hrun]

theorem rosterRequest_without (h : RosterReady s n)
    (hall : (directoryOf ws s).StorableAll conn ws (pre ++ item :: post))
    {ident : RosterIdentifier}
    (hfirst : ((directoryOf ws s).after conn pre).firstForeign item = some ident) :
    (rosterRequest conn ws (pre ++ post) s n).1 = .roster
        (((directoryOf ws s).results conn (pre ++ item :: post)).eraseIdx pre.length) ∧
      directoryOf ws (rosterAfter conn ws (pre ++ post) s n) =
        directoryOf ws (rosterAfter conn ws (pre ++ item :: post) s n) := by
  obtain ⟨hpre, -, hpost⟩ := Directory.storableAll_append.1 hall
  have hsettle := @Directory.settle_of_foreign conn _ _ _ hfirst
  rw [hsettle] at hpost
  have hwithout := Directory.storableAll_append.2 ⟨hpre, hpost⟩
  obtain ⟨hanswer, _, hbatch⟩ := rosterRequest_eq h hwithout
  obtain ⟨-, _, hwhole⟩ := rosterRequest_eq h hall
  refine ⟨?_, ?_⟩
  · rw [hanswer, Directory.results_append, Directory.results_append, Directory.results, hsettle,
      List.eraseIdx_append_of_length_le Directory.length_results.le, Directory.length_results,
      Nat.sub_self, List.eraseIdx_cons_zero]
  · rw [hbatch.directory, hwhole.directory, Directory.after_append, Directory.after_append,
      Directory.after_cons, hsettle]

/-- An item that is not refused takes effect on what the items before it have left. -/
theorem directoryOf_stored (h : RosterReady s n)
    (hall : (directoryOf ws s).StorableAll conn ws (pre ++ [item]))
    (hfirst : ((directoryOf ws s).after conn pre).firstForeign item = none) :
    directoryOf ws (rosterAfter conn ws (pre ++ [item]) s n) =
      (directoryOf ws (rosterAfter conn ws pre s n)).upsert conn item := by
  obtain ⟨-, _, hbatch⟩ := rosterRequest_eq h hall
  obtain ⟨-, _, hbefore⟩ := rosterRequest_eq h (Directory.storableAll_append.1 hall).1
  rw [hbatch.directory, hbefore.directory, Directory.after_append, Directory.after_cons,
    Directory.settle_of_free hfirst]
  rfl

end Batch

/-- A batch gives per-item results exactly when the database can take every item at its
turn, and no refused item is refused for another identifier in the end. -/
theorem perItem_iff (h : RosterReady s n) : PerItem conn ws users s n ↔
    (directoryOf ws s).StorableAll conn ws users ∧
      Directory.RefusedAlike conn ((directoryOf ws s).after conn users) (directoryOf ws s)
        users := by
  have hcovers : ((directoryOf ws s).after conn users).Covers
      ((directoryOf ws s).after conn users) := ⟨rfl, fun _ hsome => hsome⟩
  constructor
  · intro hper
    have hall : (directoryOf ws s).StorableAll conn ws users := by
      by_contra hnot
      obtain ⟨e, s', n', hraised⟩ := (run_upsertRosterFrom users [] h).2 hnot
      obtain ⟨results, hanswer, -⟩ := hper.completes
      have hrequest : rosterRequest conn ws users s n = (.raised e, s', n') := hraised
      rw [hrequest] at hanswer
      cases hanswer
    obtain ⟨s', n', hrun, hbatch⟩ := (run_upsertRosterFrom users [] h).1 hall
    have hsame := (hper.repeated _ s' n' hrun).1
    rw [(rosterRequest_again hall hbatch).1] at hsame
    exact ⟨hall, (hcovers.results_eq_iff rfl hall).1 (Outcome.roster.inj hsame)⟩
  · rintro ⟨hall, halike⟩
    have hanswer := (@rosterRequest_eq conn ws n s users h hall).1
    have hresults : ∀ {results pre item post}, users = pre ++ item :: post →
        (rosterRequest conn ws users s n).1 = .roster results →
          results = (directoryOf ws s).results conn users ∧
            results[pre.length]? = some (((directoryOf ws s).after conn pre).result item) ∧
              (directoryOf ws s).StorableAll conn ws (pre ++ [item]) := by
      intro results pre item post hsplit hgiven
      obtain rfl := Outcome.roster.inj (hanswer.symm.trans hgiven)
      refine ⟨rfl, ?_, ?_⟩
      · rw [hsplit]
        exact Directory.getElem?_results
      · rw [hsplit] at hall
        obtain ⟨hpre, hitem, -⟩ := Directory.storableAll_append.1 hall
        exact Directory.storableAll_append.2 ⟨hpre, hitem, trivial⟩
    refine ⟨⟨_, hanswer, Directory.userRef_results⟩, ?_, ?_, ?_⟩
    · intro pre item post results hsplit hgiven hresult
      obtain ⟨-, hitem, hfirst⟩ := hresults hsplit hgiven
      have hnone := congrArg RosterResult.error (Option.some.inj (hitem.symm.trans hresult))
      exact directoryOf_stored h hfirst (Option.map_eq_none_iff.1 hnone)
    · intro pre item post results error hsplit hgiven hresult
      obtain ⟨rfl, hitem, hfirst⟩ := hresults hsplit hgiven
      have hsome := congrArg RosterResult.error (Option.some.inj (hitem.symm.trans hresult))
      obtain ⟨ident, hident, -⟩ := Option.map_eq_some_iff.1 hsome
      subst hsplit
      exact ⟨rosterAfter_refused h hfirst hident, rosterRequest_without h hall hident⟩
    · intro results s' n' hrun
      obtain ⟨s₁, n₁, hrun', hbatch⟩ := (run_upsertRosterFrom users [] h).1 hall
      cases hrun.symm.trans hrun'
      obtain ⟨hagain, hrows⟩ := rosterRequest_again hall hbatch
      refine ⟨?_, hrows⟩
      rw [hagain, (hcovers.results_eq_iff rfl hall).2 halike]
      rfl

/-! ### A kind that is none -/

theorem rosterReady_empty : RosterReady ∅ 1 :=
  ⟨⟨fun _ _ _ _ _ _ hu => (by cases hu), fun _ _ _ _ hrow => (by cases hrow)⟩,
    fun _ _ _ hu => (by cases hu)⟩

/-- The second user's kind is none of the four. -/
def mixedKinds : List RosterUser :=
  [{ userRef := py "u1" }, { userRef := py "u2", kind := py "human" }, { userRef := py "u3" }]

theorem perItem_iff_mixedKinds : PerItem noDates 1 mixedKinds ∅ 1 ↔
    (directoryOf 1 ∅).StorableAll noDates 1 mixedKinds ∧
      Directory.RefusedAlike noDates ((directoryOf 1 ∅).after noDates mixedKinds)
        (directoryOf 1 ∅) mixedKinds :=
  perItem_iff rosterReady_empty

/-- The request ends at the second user: no result is returned, and the third is not
stored. -/
theorem mixedKinds_raise : ¬ ∀ users s n, RosterReady s n → PerItem noDates 1 users s n := by
  intro h
  obtain ⟨results, hanswer, -⟩ := (h mixedKinds ∅ 1 rosterReady_empty).completes
  have hraised : (rosterRequest noDates 1 mixedKinds ∅ 1).1 =
      .raised (.database .invalidText) := by rfl
  cases hraised.symm.trans hanswer

end TrueFigure.Server
