import TrueFigure.Library.Schedules
import TrueFigure.Server.Roster

/-!
# Who owns an identifier

Concurrent roster requests, one statement at a time. The owner of an identifier
is checked by one statement and the identifier inserted, unless it is there, by
another; nothing looks at the outcome of the insert. So an item is reported
truly unless another user's row for one of its identifiers is committed between
the two.
-/
namespace TrueFigure.Server

open TrueFigure.Library TrueFigure.Python

def DatabaseFault (e : Failure) : Prop := ∃ d, e = .database d

/-- The rows of user identifiers stay as they are. -/
def KeepsOwners (s t : Db) : Prop :=
  ∀ ws ns value row, s.lookup (.userIdentifier ws ns value) = some row →
    t.lookup (.userIdentifier ws ns value) = some row

/-- Every identifier the item lists is owned by the item's user. -/
def OwnsListed (s : Db) (ws : ℕ) (item : RosterUser) : Prop :=
  ∃ user : UserRow, s.lookup (.user ws item.userRef) = some user ∧
    ∀ ident ∈ item.identifiers,
      s.lookup (.userIdentifier ws ident.ns ident.value) = some ⟨user.id⟩

/-- The session is at the insert of an identifier. -/
inductive AtInsert (ws userId : ℕ) (ns value : PyStr) : Transaction → Prop
  | reached (conn : RosterConnection) (next : Transaction) : AtInsert ws userId ns value
      (insertIdentifier conn ws userId ns value next)
  | waited (conn : RosterConnection) (next : UserIdentifierRow → Transaction) :
    AtInsert ws userId ns value
      (.write (.userIdentifier ws ns value) (keepOwner conn ws userId ns value) next)

section Requests

variable {ι : Type} [DecidableEq ι] (conn : RosterConnection)

/-- A step in which no identifier is inserted that is another user's by now. -/
def UncontestedStep (w w' : World ι Row Failure Reply Outcome) : Prop :=
  ∃ i, Step DatabaseFault i w w' ∧ ∀ log rest next ws userId ns value,
    w.stations i = .inside log rest next → AtInsert ws userId ns value rest →
      ∀ row : UserIdentifierRow,
        (view log w.committed).lookup (.userIdentifier ws ns value) = some row →
          row.userId = userId

def itemNext (ws : ℕ) (item : RosterUser) (items : List RosterUser) (results : List RosterResult) :
    Except Failure Reply → Process
  | .ok _ => upsertRosterFrom conn ws items (results ++ [⟨item.userRef, none⟩])
  | .error (.tfError err) =>
    upsertRosterFrom conn ws items (results ++ [⟨item.userRef, some err.toErrorObject⟩])
  | .error e => .done (.raised e)

/-- What a request comes to at the end of its item number `k`, with the rows
before and after. -/
inductive ItemReport (ws : ℕ) (users : List RosterUser) (s s' : Db) : Process → Prop
  /-- Upserted, and every identifier listed is owned by the item's user. -/
  | upserted {k : ℕ} {item : RosterUser} {results : List RosterResult}
      (hitem : users[k]? = some item) (hresults : results.length = k)
      (howned : OwnsListed s' ws item) :
      ItemReport ws users s s' (upsertRosterFrom conn ws (users.drop (k + 1))
        (results ++ [⟨item.userRef, none⟩]))
  /-- Rejected with TF-CFG-004, and nothing is changed. -/
  | rejected {k : ℕ} {item : RosterUser} {results : List RosterResult} {err : TFError}
      (hitem : users[k]? = some item) (hresults : results.length = k)
      (hcode : err.code = .cfg004) (hrows : s' = s) :
      ItemReport ws users s s' (upsertRosterFrom conn ws (users.drop (k + 1))
        (results ++ [⟨item.userRef, some err.toErrorObject⟩]))
  /-- Nothing is reported, and nothing is changed. -/
  | raised {e : Failure} (hrows : s' = s) : ItemReport ws users s s' (.done (.raised e))

/-! ### Sessions -/

/-- The user of the item is stored under this id, and owns these identifiers. -/
structure Holds (s : Db) (ws : ℕ) (item : RosterUser) (userId : ℕ) (log : List (Change Row))
    (idents : List RosterIdentifier) : Prop where
  user : ∃ row : UserRow, (view log s).lookup (.user ws item.userRef) = some row ∧ row.id = userId
  locked : RowKey.user ws item.userRef ∈ locked log
  owned : ∀ ident ∈ idents,
    (view log s).lookup (.userIdentifier ws ident.ns ident.value) = some ⟨userId⟩

/-- Where the transaction of an item can be, with what it has ensured by then. -/
inductive RosterSession (s : Db) (ws : ℕ) (item : RosterUser) :
    List (Change Row) → Transaction → Prop
  | start : RosterSession s ws item [] (upsertRosterUser conn ws item)
  | upsert (id : ℕ) : RosterSession s ws item []
      (.write (.user ws item.userRef) (upsertUser conn ws id item) fun row =>
        addIdentifiers conn ws (row : UserRow).id item.identifiers)
  | checking {userId : ℕ} {log : List (Change Row)} {done todo : List RosterIdentifier}
      (hitem : item.identifiers = done ++ todo) (h : Holds s ws item userId log done) :
      RosterSession s ws item log (addIdentifiers conn ws userId todo)
  | inserting {userId : ℕ} {log : List (Change Row)} {done todo : List RosterIdentifier}
      {ident : RosterIdentifier} (hitem : item.identifiers = done ++ ident :: todo)
      (h : Holds s ws item userId log done) {rest : Transaction}
      (hrest : rest = insertIdentifier conn ws userId ident.ns ident.value
          (addIdentifiers conn ws userId todo) ∨
        rest = .write (.userIdentifier ws ident.ns ident.value)
          (keepOwner conn ws userId ident.ns ident.value) fun _ =>
            addIdentifiers conn ws userId todo) :
      RosterSession s ws item log rest
  | refused {log : List (Change Row)} {e : Failure}
      (h : ∀ err, e = .tfError err → err.code = .cfg004) : RosterSession s ws item log (.throw e)

/-- Where a request can be. -/
inductive RosterStation (s : Db) (ws : ℕ) (users : List RosterUser) :
    Station Row Failure Reply Outcome → Prop
  | between (k : ℕ) {results : List RosterResult} (hk : k ≤ users.length)
      (hresults : results.length = k) :
      RosterStation s ws users (.resting (upsertRosterFrom conn ws (users.drop k) results))
  | raised (e : Failure) : RosterStation s ws users (.resting (.done (.raised e)))
  | within (k : ℕ) {item : RosterUser} {results : List RosterResult} {log : List (Change Row)}
      {rest : Transaction} (hitem : users[k]? = some item) (hresults : results.length = k)
      (h : RosterSession conn s ws item log rest) :
      RosterStation s ws users
        (.inside log rest (itemNext conn ws item (users.drop (k + 1)) results))

end Requests

variable {conn : RosterConnection} {s s' : Db} {ws userId : ℕ} {item : RosterUser}
  {log : List (Change Row)} {done todo : List RosterIdentifier} {ident : RosterIdentifier}

/-! ### Identifiers keep their owners -/

/-- The change leaves an identifier that is there to its owner. -/
def KeepsOwner : Change Row → Prop
  | ⟨.userIdentifier _ _ _, before, after⟩ => ∀ row, before = some row → after = row
  | _ => True

theorem keepsOwners_view (hlog : Consistent log s) (h : ∀ c ∈ log, KeepsOwner c) :
    KeepsOwners s (view log s) := by
  induction log generalizing s with
  | nil => exact fun _ _ _ _ hrow => hrow
  | cons c log ih =>
    obtain ⟨hc, hlog⟩ := hlog
    obtain ⟨hkeeps, hrest⟩ := List.forall_mem_cons.1 h
    intro ws ns value row hrow
    refine ih hlog hrest ws ns value row ?_
    obtain ⟨key, before, after⟩ := c
    by_cases hkey : RowKey.userIdentifier ws ns value = key
    · subst hkey
      rw [AList.lookup_insert, hkeeps row (hc.symm.trans hrow)]
    · rw [AList.lookup_insert_ne hkey]
      exact hrow

theorem textArgument_eq_ok {t t' : PyStr} (h : textArgument t = .ok t') : t' = t := by
  unfold textArgument at h
  split_ifs at h
  exact (Except.ok.inj h).symm

theorem textArgument_not_tfError {t : PyStr} {err : TFError} :
    textArgument t ≠ .error (.tfError err) := by
  unfold textArgument
  split_ifs <;> simp

theorem bind_not_tfError {α β : Type} {x : Except Failure α} {f : α → Except Failure β}
    (hx : ∀ err, x ≠ .error (.tfError err)) (hf : ∀ a err, f a ≠ .error (.tfError err))
    (err : TFError) : (x >>= f) ≠ .error (.tfError err) := by
  cases x with
  | error e =>
    intro h
    have he : e = .tfError err := Except.error.inj h
    exact hx err (by rw [he])
  | ok a => exact hf a err

theorem liftDb_not_tfError {α : Type} {x : Except DbError α} (err : TFError) :
    liftDb x ≠ .error (.tfError err) := by
  cases x <;> simp [liftDb]

theorem map_not_tfError {α β : Type} {x : Except Failure α} {f : α → β}
    (hx : ∀ err, x ≠ .error (.tfError err)) (err : TFError) : x.map f ≠ .error (.tfError err) := by
  cases x with
  | error e =>
    intro h
    exact hx err (congrArg Except.error (Except.error.inj h))
  | ok a => exact nofun

theorem optionalText_not_tfError (t : Option PyStr) (err : TFError) :
    optionalText t ≠ .error (.tfError err) := by
  cases t with
  | none => exact nofun
  | some t => exact map_not_tfError (fun _ => textArgument_not_tfError) err

theorem dateArgument_not_tfError (t : Option PyStr) (err : TFError) :
    dateArgument conn t ≠ .error (.tfError err) := by
  refine bind_not_tfError (optionalText_not_tfError t) (fun text err => ?_) err
  cases text with
  | none => exact nofun
  | some text => exact map_not_tfError liftDb_not_tfError err

theorem userValues_not_tfError {id : ℕ} (err : TFError) :
    userValues conn id item ≠ .error (.tfError err) := by
  refine bind_not_tfError (fun _ => textArgument_not_tfError) (fun kind err => ?_) err
  refine bind_not_tfError liftDb_not_tfError (fun userType err => ?_) err
  refine bind_not_tfError (fun _ => textArgument_not_tfError) (fun _ err => ?_) err
  refine bind_not_tfError (optionalText_not_tfError _) (fun _ err => ?_) err
  refine bind_not_tfError (optionalText_not_tfError _) (fun _ err => ?_) err
  refine bind_not_tfError (optionalText_not_tfError _) (fun _ err => ?_) err
  refine bind_not_tfError (dateArgument_not_tfError _) (fun effectiveFrom err => ?_) err
  refine bind_not_tfError (dateArgument_not_tfError _) (fun effectiveTo err => ?_) err
  cases effectiveFrom <;> cases effectiveTo <;> simp
  split_ifs <;> simp

theorem upsertUser_not_tfError {id : ℕ} {before : Option UserRow} {err : TFError} :
    upsertUser conn ws id item before ≠ .error (.tfError err) := by
  refine bind_not_tfError userValues_not_tfError (fun row err => ?_) err
  cases before with
  | none =>
    dsimp only
    split_ifs <;> simp
  | some old => simp

theorem keepOwner_eq_ok {ns value : PyStr} {before : Option UserIdentifierRow}
    {row : UserIdentifierRow} (h : keepOwner conn ws userId ns value before = .ok row) :
    (∀ old, before = some old → row = old) ∧ (before = none → row = ⟨userId⟩) := by
  cases before with
  | none =>
    unfold keepOwner at h
    split_ifs at h
    exact ⟨nofun, fun _ => (Except.ok.inj h).symm⟩
  | some old => exact ⟨fun _ hold => (Except.ok.inj h).symm.trans (Option.some.inj hold), nofun⟩

theorem keepOwner_not_tfError {ns value : PyStr} {before : Option UserIdentifierRow}
    {err : TFError} : keepOwner conn ws userId ns value before ≠ .error (.tfError err) := by
  cases before with
  | none =>
    unfold keepOwner
    split_ifs <;> simp
  | some old => exact nofun

/-- The loop over the identifiers is done, cannot bind the next one, or checks its
owner. -/
theorem addIdentifiers_cases (conn : RosterConnection) (ws userId : ℕ) (todo : List RosterIdentifier) :
    (todo = [] ∧ addIdentifiers conn ws userId todo = .pure .done) ∨
      (∃ e, (∀ err, e ≠ .tfError err) ∧ addIdentifiers conn ws userId todo = .throw e) ∨
      ∃ ident rest, todo = ident :: rest ∧ addIdentifiers conn ws userId todo = .read fun s =>
        if (userByIdentifier s ws ident.ns ident.value).any fun owner => owner ≠ userId then
          .throw (.tfError ⟨.cfg004, some (py "identifiers"),
            some (ident.ns ++ py ":" ++ ident.value ++ py " owned by another user")⟩)
        else insertIdentifier conn ws userId ident.ns ident.value (addIdentifiers conn ws userId rest) := by
  cases todo with
  | nil => exact .inl ⟨rfl, rfl⟩
  | cons ident rest =>
    refine .inr ?_
    cases hns : textArgument ident.ns with
    | error e =>
      refine .inl ⟨e, ?_, by simp only [addIdentifiers, hns]⟩
      rintro err rfl
      exact textArgument_not_tfError hns
    | ok ns =>
      cases hvalue : textArgument ident.value with
      | error e =>
        refine .inl ⟨e, ?_, by simp only [addIdentifiers, hns, hvalue]⟩
        rintro err rfl
        exact textArgument_not_tfError hvalue
      | ok value =>
        refine .inr ⟨ident, rest, rfl, ?_⟩
        simp only [addIdentifiers, hns, hvalue]
        rw [textArgument_eq_ok hns, textArgument_eq_ok hvalue]

theorem keepsOwner_addIdentifiers {a : Reply}
    (h : Runs (addIdentifiers conn ws userId todo) log (.ok a)) : ∀ c ∈ log, KeepsOwner c := by
  induction todo generalizing log with
  | nil =>
    obtain ⟨rfl, -⟩ := h.of_pure
    exact fun c hc => absurd hc List.not_mem_nil
  | cons ident todo ih =>
    rcases addIdentifiers_cases conn ws userId (ident :: todo) with
      ⟨hnil, -⟩ | ⟨e, -, hthrow⟩ | ⟨ident', todo', hsplit, hread⟩
    · cases hnil
    · rw [hthrow] at h
      exact h.not_throw.elim
    · obtain ⟨rfl, rfl⟩ := List.cons.inj hsplit
      rw [hread] at h
      obtain ⟨_, h⟩ := h.of_read
      split at h
      · exact h.not_throw.elim
      · obtain ⟨_, h⟩ := Runs.of_read h
        split at h
        · exact ih h
        · obtain ⟨before, after, more, hu, rfl, hmore⟩ := h.of_write
          refine List.forall_mem_cons.2 ⟨?_, ih hmore⟩
          rintro row rfl
          exact (keepOwner_eq_ok hu).1 row rfl

/-- The transaction of some item. -/
def RosterBody (conn : RosterConnection) (body : Transaction) : Prop :=
  ∃ ws item, body = upsertRosterUser conn ws item

theorem RosterBody.keepsOwner {body : Transaction} (hbody : RosterBody conn body) {a : Reply}
    (h : Runs body log (.ok a)) : ∀ c ∈ log, KeepsOwner c := by
  obtain ⟨ws, item, rfl⟩ := hbody
  obtain ⟨id, h⟩ := Runs.of_fresh h
  obtain ⟨before, after, more, -, rfl, hmore⟩ := h.of_write
  exact List.forall_mem_cons.2 ⟨trivial, keepsOwner_addIdentifiers hmore⟩

theorem upsertRoster_bodies (ws : ℕ) (users : List RosterUser) (results : List RosterResult) :
    (upsertRosterFrom conn ws users results).All (RosterBody conn) := by
  induction users generalizing results with
  | nil => trivial
  | cons item users ih =>
    refine ⟨⟨ws, item, rfl⟩, fun r => ?_⟩
    dsimp only
    split
    · exact ih _
    · exact ih _
    · trivial

/-! ### What a session has ensured -/

/-- A lookup behind a log survives the commits of others. -/
theorem lookup_view_keeps (h : KeepsOwners s s') {ns value : PyStr} {row : UserIdentifierRow}
    (hrow : (view log s).lookup (.userIdentifier ws ns value) = some row) :
    (view log s').lookup (.userIdentifier ws ns value) = some row := by
  by_cases hlocked : RowKey.userIdentifier ws ns value ∈ locked log
  · rwa [← lookup_view_of_locked hlocked s s']
  · rw [lookup_view_of_not_locked hlocked] at hrow ⊢
    exact h _ _ _ _ hrow

theorem Holds.mono (h : Holds s ws item userId log done) (hkeeps : KeepsOwners s s') :
    Holds s' ws item userId log done where
  user := by
    obtain ⟨row, hrow, hid⟩ := h.user
    exact ⟨row, by rwa [← lookup_view_of_locked h.locked s s'], hid⟩
  locked := h.locked
  owned ident hident := lookup_view_keeps hkeeps (h.owned ident hident)

theorem RosterSession.mono {rest : Transaction} (h : RosterSession conn s ws item log rest)
    (hkeeps : KeepsOwners s s') : RosterSession conn s' ws item log rest := by
  cases h with
  | start => exact .start
  | upsert id => exact .upsert id
  | checking hitem h => exact .checking hitem (h.mono hkeeps)
  | inserting hitem h hrest => exact .inserting hitem (h.mono hkeeps) hrest
  | refused h => exact .refused h

/-- An identifier is ensured that the session sees to be the user's. -/
theorem Holds.snoc (h : Holds s ws item userId log done)
    (hrow : (view log s).lookup (.userIdentifier ws ident.ns ident.value) = some ⟨userId⟩) :
    Holds s ws item userId log (done ++ [ident]) where
  user := h.user
  locked := h.locked
  owned d hd := by
    rcases List.mem_append.1 hd with hd | hd
    · exact h.owned d hd
    · rw [List.mem_singleton.1 hd]
      exact hrow

/-- An identifier is ensured that the session inserts for the user. -/
theorem Holds.insert (h : Holds s ws item userId log done)
    {before : Option UserIdentifierRow} :
    Holds s ws item userId
      (log ++ [⟨.userIdentifier ws ident.ns ident.value, before, ⟨userId⟩⟩])
      (done ++ [ident]) where
  user := by
    obtain ⟨row, hrow, hid⟩ := h.user
    refine ⟨row, ?_, hid⟩
    rw [view_append, view_cons, view_nil, AList.lookup_insert_ne (by simp)]
    exact hrow
  locked := by
    rw [locked_append]
    exact List.mem_append_left _ h.locked
  owned d hd := by
    rw [view_append, view_cons, view_nil]
    by_cases hsame : d.ns = ident.ns ∧ d.value = ident.value
    · rw [hsame.1, hsame.2, AList.lookup_insert]
    · rw [AList.lookup_insert_ne (by simpa using hsame)]
      rcases List.mem_append.1 hd with hd | hd
      · exact h.owned d hd
      · rw [List.mem_singleton.1 hd] at hsame
        exact absurd ⟨rfl, rfl⟩ hsame

/-- No identifier the session is about to insert is another user's. -/
def Uncontested (s : Db) (log : List (Change Row)) (rest : Transaction) : Prop :=
  ∀ ws userId ns value, AtInsert ws userId ns value rest → ∀ row : UserIdentifierRow,
    (view log s).lookup (.userIdentifier ws ns value) = some row → row.userId = userId

namespace RosterSession

theorem ensured (hitem : item.identifiers = done ++ ident :: todo)
    (h : Holds s ws item userId log (done ++ [ident])) :
    RosterSession conn s ws item log (addIdentifiers conn ws userId todo) :=
  .checking (by rw [hitem, List.append_assoc]; rfl) h

theorem read {f : Db → Transaction} (h : RosterSession conn s ws item log (.read f))
    (hfree : Uncontested s log (.read f)) :
    RosterSession conn s ws item log (f (view log s)) := by
  generalize hrest : (Txn.read f : Transaction) = rest at h hfree
  cases h with
  | start => cases hrest
  | upsert => cases hrest
  | @checking userId _ done todo hitem h =>
    rcases addIdentifiers_cases conn ws userId todo with
      ⟨-, hpure⟩ | ⟨e, -, hthrow⟩ | ⟨ident, todo', rfl, hread⟩
    · cases hrest.trans hpure
    · cases hrest.trans hthrow
    · obtain rfl := Txn.read.inj (hrest.trans hread)
      dsimp only
      split_ifs
      · refine .refused fun err herr => ?_
        rw [← Failure.tfError.inj herr]
      · exact .inserting hitem h (.inl rfl)
  | @inserting userId _ done todo ident hitem h _ hinsert =>
    rcases hinsert with hinsert | hinsert
    · rw [hinsert] at hfree hrest
      obtain rfl := Txn.read.inj hrest
      dsimp only
      split_ifs with hthere
      · obtain ⟨row, hrow, -⟩ : ∃ row : UserIdentifierRow, (view log s).lookup
            (.userIdentifier ws ident.ns ident.value) = some row ∧ True := by
          unfold userByIdentifier at hthere
          rw [Option.isSome_map] at hthere
          obtain ⟨row, hrow⟩ := Option.isSome_iff_exists.1 hthere
          exact ⟨row, hrow, trivial⟩
        refine ensured hitem (h.snoc ?_)
        rw [hrow, ← hfree ws userId ident.ns ident.value (.reached _ _) row hrow]
      · exact .inserting hitem h (.inr rfl)
    · cases hrest.trans hinsert
  | refused => cases hrest

theorem write {k : RowKey} {update : Option (Row k) → Except Failure (Row k)}
    {f : Row k → Transaction} (h : RosterSession conn s ws item log (.write k update f))
    (hfree : Uncontested s log (.write k update f)) {row : Row k}
    (hu : update ((view log s).lookup k) = .ok row) :
    RosterSession conn s ws item (log ++ [⟨k, (view log s).lookup k, row⟩]) (f row) := by
  generalize hrest : (Txn.write k update f : Transaction) = rest at h hfree
  cases h with
  | start => cases hrest
  | upsert id =>
    cases hrest
    refine .checking (List.nil_append _).symm ?_
    refine ⟨⟨row, ?_, rfl⟩, ?_, ?_⟩
    · rw [view_append, view_cons, view_nil, AList.lookup_insert]
    · simp
    · exact fun d hd => absurd hd List.not_mem_nil
  | @checking userId _ done todo hitem h =>
    rcases addIdentifiers_cases conn ws userId todo with
      ⟨-, hpure⟩ | ⟨e, -, hthrow⟩ | ⟨ident, todo', -, hread⟩
    · cases hrest.trans hpure
    · cases hrest.trans hthrow
    · cases hrest.trans hread
  | @inserting userId _ done todo ident hitem h _ hinsert =>
    rcases hinsert with hinsert | hinsert
    · cases hrest.trans hinsert
    · rw [hinsert] at hfree hrest
      cases hrest
      have howner : row = ⟨userId⟩ := by
        cases hrow : (view log s).lookup (.userIdentifier ws ident.ns ident.value) with
        | none =>
          rw [hrow] at hu
          exact (keepOwner_eq_ok hu).2 rfl
        | some old =>
          rw [hrow] at hu
          rw [(keepOwner_eq_ok hu).1 old rfl,
            ← hfree ws userId ident.ns ident.value (.waited _ _) old hrow]
      rw [howner]
      exact ensured hitem h.insert
  | refused => cases hrest

theorem fresh {f : ℕ → Transaction} (h : RosterSession conn s ws item log (.fresh f))
    (n : ℕ) : RosterSession conn s ws item log (f n) := by
  generalize hrest : (Txn.fresh f : Transaction) = rest at h
  cases h with
  | start =>
    obtain rfl := Txn.fresh.inj hrest
    exact .upsert n
  | upsert => cases hrest
  | @checking userId _ done todo hitem h =>
    rcases addIdentifiers_cases conn ws userId todo with
      ⟨-, hpure⟩ | ⟨e, -, hthrow⟩ | ⟨ident, todo', -, hread⟩
    · cases hrest.trans hpure
    · cases hrest.trans hthrow
    · cases hrest.trans hread
  | inserting hitem h hinsert =>
    rcases hinsert with hinsert | hinsert <;> cases hrest.trans hinsert
  | refused => cases hrest

theorem not_claim {rank : (k : RowKey) → Row k → Option ℤ} {f : Option (Sigma Row) → Transaction}
    (h : RosterSession conn s ws item log (.claim rank f)) : False := by
  generalize hrest : (Txn.claim rank f : Transaction) = rest at h
  cases h with
  | start => cases hrest
  | upsert => cases hrest
  | @checking userId _ done todo hitem h =>
    rcases addIdentifiers_cases conn ws userId todo with
      ⟨-, hpure⟩ | ⟨e, -, hthrow⟩ | ⟨ident, todo', -, hread⟩
    · cases hrest.trans hpure
    · cases hrest.trans hthrow
    · cases hrest.trans hread
  | inserting hitem h hinsert =>
    rcases hinsert with hinsert | hinsert <;> cases hrest.trans hinsert
  | refused => cases hrest

/-- A session that is done has ensured every identifier. -/
theorem pure {a : Reply} (h : RosterSession conn s ws item log (.pure a)) :
    OwnsListed (view log s) ws item := by
  generalize hrest : (Txn.pure a : Transaction) = rest at h
  cases h with
  | start => cases hrest
  | upsert => cases hrest
  | @checking userId _ done todo hitem h =>
    rcases addIdentifiers_cases conn ws userId todo with
      ⟨rfl, -⟩ | ⟨e, -, hthrow⟩ | ⟨ident, todo', -, hread⟩
    · obtain ⟨user, huser, rfl⟩ := h.user
      rw [List.append_nil] at hitem
      exact ⟨user, huser, by rw [hitem]; exact h.owned⟩
    · cases hrest.trans hthrow
    · cases hrest.trans hread
  | inserting hitem h hinsert =>
    rcases hinsert with hinsert | hinsert <;> cases hrest.trans hinsert
  | refused => cases hrest

/-- A session throws no `TFError` but the refusal of an identifier. -/
theorem throw {err : TFError} (h : RosterSession conn s ws item log (.throw (.tfError err))) :
    err.code = .cfg004 := by
  generalize hrest : (Txn.throw (.tfError err) : Transaction) = rest at h
  cases h with
  | start => cases hrest
  | upsert => cases hrest
  | @checking userId _ done todo hitem h =>
    rcases addIdentifiers_cases conn ws userId todo with
      ⟨-, hpure⟩ | ⟨e, he, hthrow⟩ | ⟨ident, todo', -, hread⟩
    · cases hrest.trans hpure
    · exact absurd (Txn.throw.inj (hrest.trans hthrow)).symm (he err)
    · cases hrest.trans hread
  | inserting hitem h hinsert =>
    rcases hinsert with hinsert | hinsert <;> cases hrest.trans hinsert
  | refused h => exact h err (Txn.throw.inj hrest).symm

theorem writeFail {k : RowKey} {update : Option (Row k) → Except Failure (Row k)}
    {f : Row k → Transaction} (h : RosterSession conn s ws item log (.write k update f))
    {before : Option (Row k)} {err : TFError} : update before ≠ .error (.tfError err) := by
  intro hu
  generalize hrest : (Txn.write k update f : Transaction) = rest at h
  cases h with
  | start => cases hrest
  | upsert id =>
    cases hrest
    exact upsertUser_not_tfError hu
  | @checking userId _ done todo hitem h =>
    rcases addIdentifiers_cases conn ws userId todo with
      ⟨-, hpure⟩ | ⟨e, -, hthrow⟩ | ⟨ident, todo', -, hread⟩
    · cases hrest.trans hpure
    · cases hrest.trans hthrow
    · cases hrest.trans hread
  | inserting hitem h hinsert =>
    rcases hinsert with hinsert | hinsert
    · cases hrest.trans hinsert
    · rw [hinsert] at hrest
      cases hrest
      exact keepOwner_not_tfError hu
  | refused => cases hrest

end RosterSession

/-! ### Requests -/

variable {users : List RosterUser} {results : List RosterResult} {k : ℕ}

/-- An item that ends leaves its request between two items, or ends it. -/
theorem rosterStation_next (hitem : users[k]? = some item) (hresults : results.length = k)
    (r : Except Failure Reply) : RosterStation conn s ws users
      (.resting (itemNext conn ws item (users.drop (k + 1)) results r)) := by
  have hk : k + 1 ≤ users.length := (List.getElem?_eq_some_iff.1 hitem).1
  have hbetween : ∀ error, RosterStation conn s ws users
      (.resting (upsertRosterFrom conn ws (users.drop (k + 1))
        (results ++ [⟨item.userRef, error⟩]))) := by
    intro error
    refine .between (k + 1) hk ?_
    rw [List.length_append, hresults, List.length_singleton]
  unfold itemNext
  split
  · exact hbetween _
  · exact hbetween _
  · exact .raised _

theorem itemReport_error (hitem : users[k]? = some item) (hresults : results.length = k)
    {e : Failure} (h : ∀ err, e = .tfError err → err.code = .cfg004) :
    ItemReport conn ws users s s
      (itemNext conn ws item (users.drop (k + 1)) results (.error e)) := by
  cases e with
  | tfError err => exact .rejected hitem hresults (h err rfl) rfl
  | reject err => exact .raised rfl
  | python e => exact .raised rfl
  | database e => exact .raised rfl

theorem RosterStation.mono {st : Station Row Failure Reply Outcome}
    (h : RosterStation conn s ws users st) (hkeeps : KeepsOwners s s') :
    RosterStation conn s' ws users st := by
  cases h with
  | between k hk hresults => exact .between k hk hresults
  | raised e => exact .raised e
  | within k hitem hresults h => exact .within k hitem hresults (h.mono hkeeps)

theorem RosterStation.start {body : Transaction} {next : Except Failure Reply → Process}
    (h : RosterStation conn s ws users (.resting (.txn body next))) :
    RosterStation conn s ws users (.inside [] body next) := by
  generalize hp : (.txn body next : Process) = p at h
  cases h with
  | between k hk hresults =>
    cases hrest : users.drop k with
    | nil =>
      rw [hrest] at hp
      cases hp
    | cons item items =>
      have hitem : users[k]? = some item := by
        rw [← List.head?_drop, hrest]
        rfl
      have hitems : users.drop (k + 1) = items := by
        rw [← List.tail_drop, hrest]
        rfl
      rw [hrest] at hp
      obtain ⟨rfl, rfl⟩ := Proc.txn.inj hp
      rw [← hitems]
      exact .within k hitem hresults .start
  | raised e => cases hp

/-- The requests are all in order. -/
structure RosterWorld {ι : Type} (conn : RosterConnection) (ws : ι → ℕ)
    (users : ι → List RosterUser) (w : World ι Row Failure Reply Outcome) : Prop where
  sound : Sound (RosterBody conn) w
  station : ∀ i, RosterStation conn w.committed (ws i) (users i) (w.stations i)

section Interleavings

variable {ι : Type} [DecidableEq ι] {wsOf : ι → ℕ} {usersOf : ι → List RosterUser}
  {w w' : World ι Row Failure Reply Outcome} {i : ι}

theorem RosterWorld.keepsOwners (h : RosterWorld conn wsOf usersOf w)
    {faults : Failure → Prop} (hs : Step faults i w w') : KeepsOwners w.committed w'.committed := by
  rcases hs.committed_eq with heq | ⟨log, a, hc⟩
  · rw [heq]
    exact fun _ _ _ _ hrow => hrow
  · obtain ⟨body, hbody, hruns, hlog⟩ := h.sound.runs_of_commits hc
    rw [hc.committed_eq]
    exact keepsOwners_view hlog (hbody.keepsOwner hruns)

/-- The process that takes an uncontested step is in order after it. -/
theorem RosterStation.step (h : RosterStation conn w.committed ws users (w.stations i))
    (hs : Step DatabaseFault i w w')
    (hfree : ∀ log rest next, w.stations i = .inside log rest next →
      Uncontested w.committed log rest)
    (hkeeps : KeepsOwners w.committed w'.committed) :
    RosterStation conn w'.committed ws users (w'.stations i) := by
  have hafter : ∀ {st}, RosterStation conn w.committed ws users st →
      w'.stations i = st → RosterStation conn w'.committed ws users (w'.stations i) := by
    intro st hst heq
    rw [heq]
    exact hst.mono hkeeps
  have hinside : ∀ {log rest next}, w.stations i = .inside log rest next →
      ∃ k item results, users[k]? = some item ∧ results.length = k ∧
        next = itemNext conn ws item (users.drop (k + 1)) results ∧
        RosterSession conn w.committed ws item log rest := by
    intro log rest next hi
    rw [hi] at h
    cases h with
    | within k hitem hresults h => exact ⟨k, _, _, hitem, hresults, rfl, h⟩
  cases hs with
  | start hi =>
    rw [hi] at h
    exact hafter h.start (World.move_stations_self _ _ _)
  | read hi =>
    obtain ⟨k, item, results, hitem, hresults, rfl, hsession⟩ := hinside hi
    exact hafter (.within k hitem hresults (hsession.read (hfree _ _ _ hi)))
      (World.move_stations_self _ _ _)
  | fresh hi =>
    obtain ⟨k, item, results, hitem, hresults, rfl, hsession⟩ := hinside hi
    exact hafter (.within k hitem hresults (hsession.fresh _)) (World.move_stations_self _ _ _)
  | write hi _ hu =>
    obtain ⟨k, item, results, hitem, hresults, rfl, hsession⟩ := hinside hi
    exact hafter (.within k hitem hresults (hsession.write (hfree _ _ _ hi) hu))
      (World.move_stations_self _ _ _)
  | claim hi =>
    obtain ⟨_, _, _, -, -, -, hsession⟩ := hinside hi
    exact hsession.not_claim.elim
  | claimNone hi =>
    obtain ⟨_, _, _, -, -, -, hsession⟩ := hinside hi
    exact hsession.not_claim.elim
  | writeFail hi =>
    obtain ⟨k, item, results, hitem, hresults, rfl, -⟩ := hinside hi
    exact hafter (rosterStation_next hitem hresults _) (World.move_stations_self _ _ _)
  | commit hi =>
    obtain ⟨k, item, results, hitem, hresults, rfl, -⟩ := hinside hi
    exact hafter (rosterStation_next hitem hresults _) (World.move_stations_self _ _ _)
  | throw hi =>
    obtain ⟨k, item, results, hitem, hresults, rfl, -⟩ := hinside hi
    exact hafter (rosterStation_next hitem hresults _) (World.move_stations_self _ _ _)
  | abort hi =>
    obtain ⟨k, item, results, hitem, hresults, rfl, -⟩ := hinside hi
    exact hafter (rosterStation_next hitem hresults _) (World.move_stations_self _ _ _)

theorem RosterWorld.step (h : RosterWorld conn wsOf usersOf w) (hs : UncontestedStep w w') :
    RosterWorld conn wsOf usersOf w' := by
  obtain ⟨i, hs, hfree⟩ := hs
  have hkeeps := h.keepsOwners hs
  refine ⟨h.sound.step hs, fun j => ?_⟩
  rcases eq_or_ne j i with rfl | hne
  · refine (h.station j).step hs (fun log rest next hi ws userId ns value hinsert => ?_) hkeeps
    exact hfree log rest next ws userId ns value hi hinsert
  · rw [hs.stations_of_ne hne]
    exact (h.station j).mono hkeeps

theorem rosterWorld_reachable {w₀ : World ι Row Failure Reply Outcome}
    (hstart : ∀ i, w₀.stations i = .resting (upsertRoster conn (wsOf i) (usersOf i)))
    (hreach : Relation.ReflTransGen UncontestedStep w₀ w) :
    RosterWorld conn wsOf usersOf w := by
  induction hreach with
  | refl =>
    have hidle : w₀.Idle (RosterBody conn) := fun i =>
      ⟨_, hstart i, upsertRoster_bodies _ _ _⟩
    refine ⟨hidle.sound, fun i => ?_⟩
    rw [hstart i]
    exact .between 0 (Nat.zero_le _) rfl
  | tail _ hs ih => exact ih.step hs

/-- Under every interleaving in which no identifier is inserted that has become
another user's: an item reported as upserted has its user own every identifier it
lists, any other item is rejected with TF-CFG-004 and changes nothing, and an
identifier has one owner at most. -/
theorem roster_reports {w₀ : World ι Row Failure Reply Outcome}
    (hstart : ∀ i, w₀.stations i = .resting (upsertRoster conn (wsOf i) (usersOf i)))
    (hreach : Relation.ReflTransGen UncontestedStep w₀ w) (hs : Step DatabaseFault i w w')
    {log : List (Change Row)} {rest : Transaction} {next : Except Failure Reply → Process}
    (hinside : w.stations i = .inside log rest next) {p : Process}
    (hends : w'.stations i = .resting p) :
    ItemReport conn (wsOf i) (usersOf i) w.committed w'.committed p ∧
      ∀ ws ns value owner owner', userByIdentifier w'.committed ws ns value = some owner →
        userByIdentifier w'.committed ws ns value = some owner' → owner = owner' := by
  have hworld := rosterWorld_reachable hstart hreach
  refine ⟨?_, fun ws ns value owner owner' h h' => Option.some.inj (h.symm.trans h')⟩
  have hstation := hworld.station i
  rw [hinside] at hstation
  cases hstation with
  | within k hitem hresults hsession =>
    have hafter : ∀ {q : Process} {s : Db} {n : ℕ},
        ({ w with committed := s, sequence := n }.move i (.resting q)).stations i = .resting p →
          q = p := by
      intro q s n h
      rw [World.move_stations_self] at h
      exact Station.resting.inj h
    cases hs with
    | start hi => cases hinside.symm.trans hi
    | read hi => cases (World.move_stations_self _ _ _).symm.trans hends
    | fresh hi => cases (World.move_stations_self _ _ _).symm.trans hends
    | write hi => cases (World.move_stations_self _ _ _).symm.trans hends
    | claim hi => cases (World.move_stations_self _ _ _).symm.trans hends
    | claimNone hi => cases (World.move_stations_self _ _ _).symm.trans hends
    | commit hi =>
      cases hinside.symm.trans hi
      rw [← hafter hends]
      exact .upserted hitem hresults hsession.pure
    | throw hi =>
      cases hinside.symm.trans hi
      rw [← hafter hends]
      exact itemReport_error hitem hresults (by rintro err rfl; exact hsession.throw)
    | writeFail hi _ hu =>
      cases hinside.symm.trans hi
      rw [← hafter hends]
      exact itemReport_error hitem hresults (by
        rintro err rfl
        exact absurd hu hsession.writeFail)
    | abort hi hfault =>
      cases hinside.symm.trans hi
      obtain ⟨d, rfl⟩ := hfault
      rw [← hafter hends]
      exact itemReport_error hitem hresults (by rintro err h; cases h)

end Interleavings

/-! ### Two users and one address -/

def noDates : RosterConnection := ⟨fun _ => .error .invalidText, fun _ => true⟩

def addressOf (userRef : PyStr) : RosterUser :=
  { userRef := userRef, identifiers := [⟨py "email", py "a@x"⟩] }

/-- Two requests claim one address for two users. -/
def addressRace : World Bool Row Failure Reply Outcome where
  committed := ∅
  sequence := 7
  stations b := .resting (upsertRoster noDates 1 [addressOf (if b then py "u2" else py "u1")])

/-- The first request has checked the owner, the second has then committed. -/
def afterCheck : List Bool :=
  [false, false, false, false, true, true, true, true, true, true, true, false]

def rosterResults : Station Row Failure Reply Outcome → Option (List RosterResult)
  | .resting (.done (.roster results)) => some results
  | _ => none

theorem of_rosterResults {st : Station Row Failure Reply Outcome} {results : List RosterResult}
    (h : rosterResults st = some results) : st = .resting (.done (.roster results)) := by
  unfold rosterResults at h
  split at h
  · cases h
    rfl
  · cases h

/-- The request is inside a transaction. -/
def busy : Station Row Failure Reply Outcome → Bool
  | .inside _ _ _ => true
  | _ => false

theorem of_busy {st : Station Row Failure Reply Outcome} (h : busy st = true) :
    ∃ log rest next, st = .inside log rest next := by
  cases st with
  | resting p => cases h
  | inside log rest next => exact ⟨log, rest, next, rfl⟩

/-- What the first request reports for its user, the user's id and the owner of the
address, once it is done. -/
def addressOutcome (w : World Bool Row Failure Reply Outcome) :
    Option (List RosterResult) × Option ℕ × Option ℕ :=
  (rosterResults (w.stations false),
    (w.committed.lookup (.user 1 (py "u1"))).map UserRow.id,
    userByIdentifier w.committed 1 (py "email") (py "a@x"))

/-- The session sees no identifier. -/
def unclaimed (w : World Bool Row Failure Reply Outcome) (i : Bool) : Bool :=
  match w.stations i with
  | .resting _ => true
  | .inside log _ _ => (view log w.committed).entries.all fun e =>
    match e.1 with
    | .userIdentifier _ _ _ => false
    | _ => true

theorem uncontestedStep_of_unclaimed {w w' : World Bool Row Failure Reply Outcome} {i : Bool}
    (h : unclaimed w i = true) (hw : w.advance i = some w') : UncontestedStep w w' := by
  refine ⟨i, World.step_of_advance hw, fun log rest next ws userId ns value hi _ row hrow => ?_⟩
  unfold unclaimed at h
  rw [hi] at h
  have hentry := List.all_eq_true.1 h _ (AList.mem_lookup_iff.1 hrow)
  cases hentry

/-- The first request has the address to itself. -/
theorem roster_reports_alone : ∃ w w' : World Bool Row Failure Reply Outcome,
    Relation.ReflTransGen UncontestedStep addressRace w ∧ Step DatabaseFault false w w' ∧
      ItemReport noDates 1 [addressOf (py "u1")] w.committed w'.committed
        (.done (.roster [⟨py "u1", none⟩])) := by
  have hreplayed : ((addressRace.follow (List.replicate 6 false)).bind fun w =>
      (w.advance false).map fun w' => (busy (w.stations false), rosterResults (w'.stations false)))
        = some (true, some [⟨py "u1", none⟩]) := by decide +kernel
  obtain ⟨w, hw, hlast⟩ := Option.bind_eq_some_iff.1 hreplayed
  obtain ⟨w', hw', houtcome⟩ := Option.map_eq_some_iff.1 hlast
  obtain ⟨hbusy, hresults⟩ := Prod.mk.inj houtcome
  have halong : World.along unclaimed addressRace (List.replicate 6 false) = true := by
    decide +kernel
  have hreach : Relation.ReflTransGen UncontestedStep addressRace w :=
    World.chain_of_follow (fun _ _ _ => uncontestedStep_of_unclaimed) halong hw
  have hstep : Step DatabaseFault false w w' := World.step_of_advance hw'
  obtain ⟨log, rest, next, hinside⟩ := of_busy hbusy
  have hstart : ∀ b, addressRace.stations b =
      .resting (upsertRoster noDates 1 [addressOf (if b then py "u2" else py "u1")]) :=
    fun _ => rfl
  have hreports := roster_reports hstart hreach hstep hinside (of_rosterResults hresults)
  exact ⟨w, w', hreach, hstep, hreports.1⟩

theorem itemReport_addressOf {s s' : Db} {p : Process}
    (h : ItemReport noDates 1 [addressOf (py "u1")] s s' p)
    (hp : p = .done (.roster [⟨py "u1", none⟩])) : OwnsListed s' 1 (addressOf (py "u1")) := by
  cases h with
  | @upserted k item results hitem hlength howned =>
    have hk : k < 1 := (List.getElem?_eq_some_iff.1 hitem).1
    obtain rfl : k = 0 := by omega
    obtain rfl : addressOf (py "u1") = item := Option.some.inj hitem
    exact howned
  | @rejected k item results err hitem hlength =>
    have hk : k < 1 := (List.getElem?_eq_some_iff.1 hitem).1
    obtain rfl : k = 0 := by omega
    obtain rfl := List.length_eq_zero_iff.1 hlength
    simp [upsertRosterFrom] at hp
  | raised => cases hp

/-- The first request reports its user as upserted; the address is the second
user's. -/
theorem addressRace_reports : ¬ ∀ w w' log rest next p, Reachable DatabaseFault addressRace w →
    Step DatabaseFault false w w' → w.stations false = .inside log rest next →
      w'.stations false = .resting p →
        ItemReport noDates 1 [addressOf (py "u1")] w.committed w'.committed p := by
  intro h
  have hreplayed : ((addressRace.follow afterCheck).bind fun w =>
      (w.advance false).map fun w' => (busy (w.stations false), addressOutcome w')) =
        some (true, some [⟨py "u1", none⟩], some 7, some 8) := by decide +kernel
  obtain ⟨w, hw, hlast⟩ := Option.bind_eq_some_iff.1 hreplayed
  obtain ⟨w', hw', houtcome⟩ := Option.map_eq_some_iff.1 hlast
  simp only [addressOutcome, Prod.mk.injEq] at houtcome
  obtain ⟨hbusy, hresults, huser, howner⟩ := houtcome
  have hstep : Step DatabaseFault false w w' := World.step_of_advance hw'
  obtain ⟨log, rest, next, hinside⟩ := of_busy hbusy
  have hends := of_rosterResults hresults
  have hreport := h w w' log rest next _ (World.reachable_of_follow hw) hstep hinside hends
  obtain ⟨user, hstored, howned⟩ := itemReport_addressOf hreport rfl
  rw [show (addressOf (py "u1")).userRef = py "u1" from rfl] at hstored
  rw [hstored] at huser
  have haddress := howned ⟨py "email", py "a@x"⟩ (.head _)
  rw [userByIdentifier, haddress] at howner
  cases huser.symm.trans howner

end TrueFigure.Server
