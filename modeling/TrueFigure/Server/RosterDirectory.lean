import TrueFigure.Server.RosterOwnership
import TrueFigure.Server.RosterWindows

/-!
# The roster without ids

What a roster request is for: the people of a workspace by their reference and the
owner of every identifier. An item is refused exactly when it lists an identifier of
somebody else; else its user's columns are replaced and its identifiers are the
user's. The transaction of an item refines this.
-/
namespace TrueFigure.Server

open TrueFigure.Library TrueFigure.Python

def UserRow.anonymous (u : UserRow) : UserRow := { u with id := 0 }

/-- The users of a workspace by `user_ref`, and the `user_ref` an identifier belongs to. -/
@[ext] structure Directory where
  people : PyStr → Option UserRow
  owner : PyStr → PyStr → Option PyStr

namespace Directory

variable (conn : RosterConnection) (ws : ℕ) (d : Directory)

/-- The identifier belongs to somebody else. -/
def foreign (ref : PyStr) (ident : RosterIdentifier) : Bool :=
  (d.owner ident.ns ident.value).any fun owner => owner ≠ ref

/-- The identifier an item is refused for. -/
def firstForeign (item : RosterUser) : Option RosterIdentifier :=
  item.identifiers.find? (d.foreign item.userRef)

/-- The user takes an identifier. -/
def own (ref : PyStr) (ident : RosterIdentifier) : Directory where
  people := d.people
  owner ns value := if ident.ns = ns ∧ ident.value = value then some ref else d.owner ns value

/-- The user has these columns; its status stays. -/
def person (ref : PyStr) (row : UserRow) : Directory where
  people := Function.update d.people ref
    (some { row with id := 0, userStatus := (d.people ref).elim .active UserRow.userStatus })
  owner := d.owner

/-- The item takes effect. -/
def upsert (item : RosterUser) : Directory :=
  match userValues conn 0 item with
  | .ok row => item.identifiers.foldl (fun d ident => d.own item.userRef ident)
      (d.person item.userRef row)
  | .error _ => d

/-- The directory after an item. -/
def settle (item : RosterUser) : Directory :=
  if (d.firstForeign item).isNone then d.upsert conn item else d

/-- The identifiers up to the first foreign one can be bound, and the free ones among
them have room in the index. -/
def Bindable (ref : PyStr) : List RosterIdentifier → Prop
  | [] => True
  | ident :: idents =>
    (textArgument ident.ns = .ok ident.ns ∧ textArgument ident.value = .ok ident.value) ∧
      (d.foreign ref ident = false →
        (d.owner ident.ns ident.value = none →
          conn.indexable (.userIdentifier ws ident.ns ident.value) = true) ∧
        Bindable ref idents)

/-- The database can take what the item says until it is refused: kind, texts, dates and
window of the user, the entry of a new user in the index, and the identifiers. -/
structure Storable (item : RosterUser) : Prop where
  values : ∃ row, userValues conn 0 item = .ok row
  user : d.people item.userRef = none → conn.indexable (.user ws item.userRef) = true
  identifiers : d.Bindable conn ws item.userRef item.identifiers

end Directory

/-! ### The directory of a store -/

/-- The reference of a user of the workspace. -/
def refById (s : Db) (ws userId : ℕ) : Option PyStr :=
  s.entries.findSome? fun
    | ⟨.user ws' ref, row⟩ => if ws' = ws ∧ (row : UserRow).id = userId then some ref else none
    | _ => none

def directoryOf (ws : ℕ) (s : Db) : Directory where
  people ref := (s.lookup (.user ws ref)).map UserRow.anonymous
  owner ns value := (userByIdentifier s ws ns value).bind (refById s ws)

/-- The keys of the schema hold, and the identity sequence is past the ids it has given. -/
structure RosterReady (s : Db) (n : ℕ) : Prop where
  keys : RosterKeys s
  below : ∀ ws ref (u : UserRow), s.lookup (.user ws ref) = some u → u.id < n

variable {conn : RosterConnection} {s s' : Db} {n ws userId : ℕ} {ref ns value : PyStr}
  {u : UserRow}

theorem refById_eq_some (hkeys : RosterKeys s) :
    refById s ws userId = some ref ↔
      ∃ u : UserRow, s.lookup (.user ws ref) = some u ∧ u.id = userId := by
  have hfound : ∀ {ref}, refById s ws userId = some ref →
      ∃ u : UserRow, s.lookup (.user ws ref) = some u ∧ u.id = userId := by
    intro ref h
    obtain ⟨⟨k, row⟩, hmem, hrow⟩ := List.exists_of_findSome?_eq_some h
    cases k with
    | user ws' ref' =>
      dsimp only at hrow
      split_ifs at hrow with hid
      obtain ⟨rfl, hid⟩ := hid
      cases hrow
      exact ⟨row, AList.mem_lookup_iff.2 hmem, hid⟩
    | _ => cases hrow
  refine ⟨hfound, ?_⟩
  rintro ⟨u, hu, hid⟩
  have hsome : (refById s ws userId).isSome := by
    rw [refById, List.findSome?_isSome_iff]
    exact ⟨_, AList.mem_lookup_iff.1 hu, by simp [hid]⟩
  obtain ⟨ref', href'⟩ := Option.isSome_iff_exists.1 hsome
  obtain ⟨u', hu', hid'⟩ := hfound href'
  rw [href', (hkeys.unique _ _ _ _ _ _ hu' hu (hid'.trans hid.symm)).2]

theorem owner_eq_some (hkeys : RosterKeys s) :
    (directoryOf ws s).owner ns value = some ref ↔
      ∃ (row : UserIdentifierRow) (u : UserRow),
        s.lookup (.userIdentifier ws ns value) = some row ∧
          s.lookup (.user ws ref) = some u ∧ u.id = row.userId := by
  unfold directoryOf userByIdentifier
  dsimp only
  rw [Option.bind_eq_some_iff]
  constructor
  · rintro ⟨userId, hfound, href⟩
    obtain ⟨row, hrow, rfl⟩ := Option.map_eq_some_iff.1 hfound
    obtain ⟨u, hu, hid⟩ := (refById_eq_some hkeys).1 href
    exact ⟨row, u, hrow, hu, hid⟩
  · rintro ⟨row, u, hrow, hu, hid⟩
    exact ⟨row.userId, by rw [hrow]; rfl, (refById_eq_some hkeys).2 ⟨u, hu, hid⟩⟩

theorem owner_eq_none (hkeys : RosterKeys s) :
    (directoryOf ws s).owner ns value = none ↔
      s.lookup (.userIdentifier ws ns value) = none := by
  constructor
  · intro h
    by_contra hne
    obtain ⟨row, hrow⟩ := Option.ne_none_iff_exists'.1 hne
    obtain ⟨ref, u, hu, hid⟩ := hkeys.referential _ _ _ _ hrow
    rw [(owner_eq_some hkeys).2 ⟨row, u, hrow, hu, hid⟩] at h
    cases h
  · intro h
    unfold directoryOf userByIdentifier
    dsimp only
    rw [h]
    rfl

/-- An owner is somebody else exactly when the id is another one. -/
theorem foreign_eq (hkeys : RosterKeys s) (hu : s.lookup (.user ws ref) = some u)
    (ident : RosterIdentifier) :
    (directoryOf ws s).foreign ref ident =
      (userByIdentifier s ws ident.ns ident.value).any fun owner => owner ≠ u.id := by
  unfold Directory.foreign
  cases hrow : s.lookup (.userIdentifier ws ident.ns ident.value) with
  | none =>
    rw [(owner_eq_none hkeys).2 hrow, userByIdentifier, hrow]
    rfl
  | some row =>
    obtain ⟨ref', u', hu', hid⟩ := hkeys.referential _ _ _ _ hrow
    rw [(owner_eq_some hkeys).2 ⟨row, u', hrow, hu', hid⟩, userByIdentifier, hrow]
    have hsame : ref' = ref ↔ row.userId = u.id := by
      constructor
      · rintro rfl
        cases hu.symm.trans hu'
        exact hid.symm
      · intro heq
        exact (hkeys.unique _ _ _ _ _ _ hu' hu (hid.trans heq)).2
    simp [hsame]

/-! ### A user row is written -/

theorem lookup_insertUser {row v : UserRow} {ws' : ℕ} {ref' : PyStr}
    (hv : (s.insert (.user ws ref) row).lookup (.user ws' ref') = some v) :
    (ws' = ws ∧ ref' = ref ∧ v = row) ∨ s.lookup (.user ws' ref') = some v := by
  by_cases hkey : RowKey.user ws' ref' = .user ws ref
  · obtain ⟨rfl, rfl⟩ := RowKey.user.inj hkey
    exact .inl ⟨rfl, rfl, Option.some.inj (hv.symm.trans (AList.lookup_insert s))⟩
  · exact .inr ((AList.lookup_insert_ne hkey).symm.trans hv)

/-- The row of a user keeps its id, or is new and takes the next one. -/
structure TakesId (s : Db) (n ws : ℕ) (ref : PyStr) (row : UserRow) : Prop where
  kept : ∀ old : UserRow, s.lookup (.user ws ref) = some old → row.id = old.id
  fresh : s.lookup (.user ws ref) = none → row.id = n

theorem RosterReady.insertUser {row : UserRow} (h : RosterReady s n)
    (hid : TakesId s n ws ref row) : RosterReady (s.insert (.user ws ref) row) (n + 1) := by
  have hold : ∀ ws' ref' (v : UserRow), (s.insert (.user ws ref) row).lookup (.user ws' ref') =
      some v → (∃ v₀ : UserRow, s.lookup (.user ws' ref') = some v₀ ∧ v₀.id = v.id) ∨
        (ws' = ws ∧ ref' = ref ∧ v.id = n) := by
    intro ws' ref' v hv
    rcases lookup_insertUser hv with ⟨rfl, rfl, rfl⟩ | hv
    · cases hbefore : s.lookup (.user ws' ref') with
      | none => exact .inr ⟨rfl, rfl, hid.fresh hbefore⟩
      | some old => exact .inl ⟨old, rfl, (hid.kept old hbefore).symm⟩
    · exact .inl ⟨v, hv, rfl⟩
  refine ⟨⟨fun ws₁ ref₁ ws₂ ref₂ v₁ v₂ h₁ h₂ heq => ?_, fun ws' ns value r hr => ?_⟩,
    fun ws' ref' v hv => ?_⟩
  · rcases hold _ _ _ h₁ with ⟨w₁, hw₁, hid₁⟩ | ⟨rfl, rfl, hid₁⟩ <;>
      rcases hold _ _ _ h₂ with ⟨w₂, hw₂, hid₂⟩ | ⟨rfl, rfl, hid₂⟩
    · exact h.keys.unique _ _ _ _ _ _ hw₁ hw₂ (by omega)
    · have := h.below _ _ _ hw₁
      omega
    · have := h.below _ _ _ hw₂
      omega
    · exact ⟨rfl, rfl⟩
  · rw [AList.lookup_insert_ne (by simp)] at hr
    obtain ⟨ref', v, hv, hvid⟩ := h.keys.referential _ _ _ _ hr
    by_cases hkey : RowKey.user ws' ref' = .user ws ref
    · obtain ⟨rfl, rfl⟩ := RowKey.user.inj hkey
      exact ⟨ref', row, AList.lookup_insert s, (hid.kept v hv).trans hvid⟩
    · exact ⟨ref', v, (AList.lookup_insert_ne hkey).trans hv, hvid⟩
  · rcases hold _ _ _ hv with ⟨v₀, hv₀, hvid⟩ | ⟨-, -, hvid⟩
    · have := h.below _ _ _ hv₀
      omega
    · omega

theorem TakesId.keepsIds {row : UserRow} (hid : TakesId s n ws ref row) :
    KeepsIds s (s.insert (.user ws ref) row) := by
  intro ws' ref' v hv
  by_cases hkey : RowKey.user ws' ref' = .user ws ref
  · obtain ⟨rfl, rfl⟩ := RowKey.user.inj hkey
    exact ⟨row, AList.lookup_insert s, hid.kept v hv⟩
  · exact ⟨v, (AList.lookup_insert_ne hkey).trans hv, rfl⟩

/-- Identifiers belong to the users they belonged to. -/
theorem owner_congr (hs : RosterKeys s) (hs' : RosterKeys s') (hids : KeepsIds s s')
    (hrows : ∀ ns value, s'.lookup (.userIdentifier ws ns value) =
      s.lookup (.userIdentifier ws ns value)) :
    (directoryOf ws s').owner = (directoryOf ws s).owner := by
  funext ns value
  cases howner : (directoryOf ws s).owner ns value with
  | none => rw [owner_eq_none hs', hrows, ← owner_eq_none hs, howner]
  | some ref =>
    obtain ⟨row, u, hrow, hu, hid⟩ := (owner_eq_some hs).1 howner
    obtain ⟨u', hu', hid'⟩ := hids ws ref u hu
    exact (owner_eq_some hs').2 ⟨row, u', (hrows ns value).trans hrow, hu', hid'.trans hid⟩

theorem directoryOf_insertUser {row values : UserRow} (h : RosterReady s n)
    (hid : TakesId s n ws ref row)
    (hrow : row.anonymous = { values with
      id := 0
      userStatus := ((directoryOf ws s).people ref).elim .active UserRow.userStatus }) :
    directoryOf ws (s.insert (.user ws ref) row) = (directoryOf ws s).person ref values := by
  refine Directory.ext (funext fun ref' => ?_) ?_
  · unfold Directory.person
    dsimp only
    rw [← hrow]
    by_cases hkey : ref' = ref
    · rw [hkey, Function.update_self]
      simp only [directoryOf, AList.lookup_insert, Option.map_some]
    · rw [Function.update_of_ne hkey]
      exact congrArg (Option.map UserRow.anonymous) (AList.lookup_insert_ne (by simpa using hkey))
  · refine owner_congr h.keys (h.insertUser hid).keys hid.keepsIds fun ns value => ?_
    exact AList.lookup_insert_ne (by simp)

/-! ### An identifier is inserted -/

theorem RosterReady.insertIdentifier (h : RosterReady s n)
    (hu : s.lookup (.user ws ref) = some u) :
    RosterReady (s.insert (.userIdentifier ws ns value) ⟨u.id⟩) n := by
  have huser : ∀ ws' ref', (s.insert (.userIdentifier ws ns value)
      (⟨u.id⟩ : UserIdentifierRow)).lookup (.user ws' ref') = s.lookup (.user ws' ref') :=
    fun ws' ref' => AList.lookup_insert_ne (by simp)
  refine ⟨⟨fun ws₁ ref₁ ws₂ ref₂ v₁ v₂ h₁ h₂ heq => ?_, fun ws' ns' value' r hr => ?_⟩,
    fun ws' ref' v hv => ?_⟩
  · rw [huser] at h₁ h₂
    exact h.keys.unique _ _ _ _ _ _ h₁ h₂ heq
  · by_cases hkey : RowKey.userIdentifier ws' ns' value' = .userIdentifier ws ns value
    · obtain ⟨rfl, rfl, rfl⟩ := RowKey.userIdentifier.inj hkey
      obtain rfl := Option.some.inj ((AList.lookup_insert s).symm.trans hr)
      exact ⟨ref, u, (huser _ _).trans hu, rfl⟩
    · rw [AList.lookup_insert_ne hkey] at hr
      obtain ⟨ref', v, hv, hid⟩ := h.keys.referential _ _ _ _ hr
      exact ⟨ref', v, (huser _ _).trans hv, hid⟩
  · rw [huser] at hv
    exact h.below _ _ _ hv

theorem directoryOf_insertIdentifier (h : RosterReady s n)
    (hu : s.lookup (.user ws ref) = some u) (ident : RosterIdentifier) :
    directoryOf ws (s.insert (.userIdentifier ws ident.ns ident.value) ⟨u.id⟩) =
      (directoryOf ws s).own ref ident := by
  have hafter : RosterReady (s.insert (.userIdentifier ws ident.ns ident.value) ⟨u.id⟩) n :=
    h.insertIdentifier hu
  have huser : ∀ ref', (s.insert (.userIdentifier ws ident.ns ident.value)
      (⟨u.id⟩ : UserIdentifierRow)).lookup (.user ws ref') = s.lookup (.user ws ref') :=
    fun ref' => AList.lookup_insert_ne (by simp)
  refine Directory.ext (funext fun ref' => ?_) (funext fun ns => funext fun value => ?_)
  · exact congrArg (Option.map UserRow.anonymous) (huser ref')
  · unfold Directory.own
    dsimp only
    split_ifs with hkey
    · obtain ⟨rfl, rfl⟩ := hkey
      exact (owner_eq_some hafter.keys).2
        ⟨⟨u.id⟩, u, AList.lookup_insert s, (huser ref).trans hu, rfl⟩
    · have hrow : (s.insert (.userIdentifier ws ident.ns ident.value)
          (⟨u.id⟩ : UserIdentifierRow)).lookup (.userIdentifier ws ns value) =
            s.lookup (.userIdentifier ws ns value) := by
        refine AList.lookup_insert_ne fun heq => hkey ?_
        obtain ⟨-, rfl, rfl⟩ := RowKey.userIdentifier.inj heq
        exact ⟨rfl, rfl⟩
      cases howner : (directoryOf ws s).owner ns value with
      | none => rw [owner_eq_none hafter.keys, hrow, ← owner_eq_none h.keys, howner]
      | some ref' =>
        obtain ⟨row, v, hfound, hv, hid⟩ := (owner_eq_some h.keys).1 howner
        exact (owner_eq_some hafter.keys).2 ⟨row, v, hrow.trans hfound, (huser ref').trans hv, hid⟩

/-! ### One item -/

/-- The refusal of an item, for this identifier. -/
def takenError (ident : RosterIdentifier) : TFError :=
  ⟨.cfg004, some (py "identifiers"),
    some (ident.ns ++ py ":" ++ ident.value ++ py " owned by another user")⟩

namespace Directory

variable {d : Directory} {ident : RosterIdentifier}

/-- Taking an identifier that is nobody else's makes no identifier somebody else's. -/
theorem foreign_own (h : d.foreign ref ident = false) : (d.own ref ident).foreign ref =
    d.foreign ref := by
  funext i
  unfold foreign own
  dsimp only
  split_ifs with hkey
  · have hsame : d.foreign ref i = d.foreign ref ident := by
      unfold foreign
      rw [hkey.1, hkey.2]
    rw [h] at hsame
    rw [← foreign, hsame]
    simp
  · rfl

theorem bindable_own (h : d.foreign ref ident = false)
    (hindex : d.owner ident.ns ident.value = none →
      conn.indexable (.userIdentifier ws ident.ns ident.value) = true)
    (idents : List RosterIdentifier) :
    (d.own ref ident).Bindable conn ws ref idents ↔ d.Bindable conn ws ref idents := by
  induction idents with
  | nil => rfl
  | cons i idents ih =>
    have hfree : ((d.own ref ident).owner i.ns i.value = none →
        conn.indexable (.userIdentifier ws i.ns i.value) = true) ↔
          (d.owner i.ns i.value = none →
            conn.indexable (.userIdentifier ws i.ns i.value) = true) := by
      unfold own
      dsimp only
      split_ifs with hkey
      · rw [← hkey.1, ← hkey.2]
        exact ⟨fun _ => hindex, fun _ => nofun⟩
      · rfl
    unfold Bindable
    rw [ih, foreign_own h, hfree]

theorem bindable_person {row : UserRow} (idents : List RosterIdentifier) {who : PyStr} :
    (d.person who row).Bindable conn ws ref idents ↔ d.Bindable conn ws ref idents := by
  induction idents with
  | nil => rfl
  | cons i idents ih =>
    unfold Bindable
    rw [ih]
    rfl

end Directory

variable {item : RosterUser}

/-- What the identifiers of an item leave. -/
structure Claimed (ws : ℕ) (ref : PyStr) (idents : List RosterIdentifier) (s s' : Db) (n : ℕ) :
    Prop where
  directory : directoryOf ws s' = idents.foldl (fun d ident => d.own ref ident) (directoryOf ws s)
  ready : RosterReady s' n
  owners : KeepsOwners s s'
  others : ∀ k, (∀ ns value, k ≠ .userIdentifier ws ns value) → s'.lookup k = s.lookup k

theorem owner_of_not_foreign (hkeys : RosterKeys s) {ident : RosterIdentifier}
    {row : UserIdentifierRow} (hforeign : (directoryOf ws s).foreign ref ident = false)
    (hrow : s.lookup (.userIdentifier ws ident.ns ident.value) = some row) :
    (directoryOf ws s).owner ident.ns ident.value = some ref := by
  cases howner : (directoryOf ws s).owner ident.ns ident.value with
  | none =>
    rw [owner_eq_none hkeys, hrow] at howner
    cases howner
  | some owner =>
    unfold Directory.foreign at hforeign
    rw [howner] at hforeign
    simpa using hforeign

theorem Directory.own_of_owner {d : Directory} {ident : RosterIdentifier}
    (h : d.owner ident.ns ident.value = some ref) : d.own ref ident = d := by
  refine Directory.ext rfl (funext fun ns => funext fun value => ?_)
  unfold own
  dsimp only
  split_ifs with hkey
  · rw [← hkey.1, ← hkey.2, h]
  · rfl

theorem Claimed.cons_owned {ident : RosterIdentifier} {idents : List RosterIdentifier}
    (h : Claimed ws ref idents s s' n)
    (howned : (directoryOf ws s).owner ident.ns ident.value = some ref) :
    Claimed ws ref (ident :: idents) s s' n where
  directory := by
    rw [List.foldl_cons, Directory.own_of_owner howned]
    exact h.directory
  ready := h.ready
  owners := h.owners
  others := h.others

theorem Claimed.cons_inserted {ident : RosterIdentifier} {idents : List RosterIdentifier}
    (hready : RosterReady s n) (hu : s.lookup (.user ws ref) = some u)
    (hrow : s.lookup (.userIdentifier ws ident.ns ident.value) = none)
    (h : Claimed ws ref idents (s.insert (.userIdentifier ws ident.ns ident.value) ⟨u.id⟩) s' n) :
    Claimed ws ref (ident :: idents) s s' n where
  directory := by
    rw [h.directory, directoryOf_insertIdentifier hready hu, List.foldl_cons]
  ready := h.ready
  owners ws' ns value row hfound := by
    refine h.owners ws' ns value row ((AList.lookup_insert_ne fun hkey => ?_).trans hfound)
    obtain ⟨rfl, rfl, rfl⟩ := RowKey.userIdentifier.inj hkey
    cases hrow.symm.trans hfound
  others k hident :=
    (h.others k hident).trans (AList.lookup_insert_ne (hident ident.ns ident.value))

/-- The error is no `TFError`. -/
def Failure.Uncaught (e : Failure) : Prop := ∀ err, e ≠ .tfError err

theorem uncaught_database (e : DbError) : (Failure.database e).Uncaught := by
  intro err h
  cases h

theorem textArgument_cases (t : PyStr) :
    textArgument t = .ok t ∨ ∃ e : Failure, e.Uncaught ∧ textArgument t = .error e := by
  cases h : textArgument t with
  | ok t' => exact .inl (by rw [textArgument_eq_ok h])
  | error e =>
    refine .inr ⟨e, ?_, rfl⟩
    rintro err rfl
    exact textArgument_not_tfError h

theorem eval_addIdentifiers (idents : List RosterIdentifier) (h : RosterReady s n)
    (hu : s.lookup (.user ws ref) = some u) :
    ((directoryOf ws s).Bindable conn ws ref idents →
      match idents.find? ((directoryOf ws s).foreign ref) with
      | none => ∃ s', (addIdentifiers conn ws u.id idents).eval s n = (.ok (.done, s'), n) ∧
          Claimed ws ref idents s s' n
      | some ident => (addIdentifiers conn ws u.id idents).eval s n =
          (.error (.tfError (takenError ident)), n)) ∧
    (¬ (directoryOf ws s).Bindable conn ws ref idents →
      ∃ e : Failure, e.Uncaught ∧
        (addIdentifiers conn ws u.id idents).eval s n = (.error e, n)) := by
  induction idents generalizing s with
  | nil =>
    refine ⟨fun _ => ⟨s, rfl, rfl, h, fun _ _ _ _ hrow => hrow, fun _ _ => rfl⟩,
      fun hnot => absurd trivial hnot⟩
  | cons ident idents ih =>
    unfold Directory.Bindable addIdentifiers
    rcases textArgument_cases ident.ns with hns | ⟨e, he, hns⟩
    swap
    · rw [hns]
      exact ⟨fun hbind => (by cases hbind.1.1), fun _ => ⟨e, he, rfl⟩⟩
    rcases textArgument_cases ident.value with hvalue | ⟨e, he, hvalue⟩
    swap
    · rw [hns, hvalue]
      exact ⟨fun hbind => (by cases hbind.1.2), fun _ => ⟨e, he, rfl⟩⟩
    rw [hns, hvalue]
    dsimp only
    rw [Txn.eval, ← foreign_eq h.keys hu]
    cases hforeign : (directoryOf ws s).foreign ref ident with
    | true =>
      rw [if_pos rfl, List.find?_cons_of_pos hforeign]
      refine ⟨fun _ => rfl, fun hnot => ?_⟩
      exact absurd ⟨⟨rfl, rfl⟩, fun hfalse => by cases hfalse⟩ hnot
    | false =>
      rw [if_neg Bool.false_ne_true, List.find?_cons_of_neg (by rw [hforeign]; simp)]
      unfold insertIdentifier
      rw [Txn.eval]
      cases hrow : s.lookup (.userIdentifier ws ident.ns ident.value) with
      | some row =>
        have howned := owner_of_not_foreign h.keys hforeign hrow
        have hthere : (userByIdentifier s ws ident.ns ident.value).isSome = true := by
          rw [userByIdentifier, hrow]
          rfl
        rw [if_pos hthere]
        obtain ⟨hbindable, hnot⟩ := ih h hu
        refine ⟨fun hbind => ?_, fun hnotBind => hnot fun hbind => hnotBind ?_⟩
        · have hresult := hbindable (hbind.2 rfl).2
          cases hfirst : idents.find? ((directoryOf ws s).foreign ref) with
          | none =>
            rw [hfirst] at hresult
            obtain ⟨s', heval, hclaimed⟩ := hresult
            exact ⟨s', heval, hclaimed.cons_owned howned⟩
          | some taken =>
            rw [hfirst] at hresult
            exact hresult
        · refine ⟨⟨rfl, rfl⟩, fun _ => ⟨fun hnone => ?_, hbind⟩⟩
          cases howned.symm.trans hnone
      | none =>
        have hfree := (owner_eq_none h.keys).2 hrow
        have hthere : ¬ (userByIdentifier s ws ident.ns ident.value).isSome = true := by
          rw [userByIdentifier, hrow]
          exact Bool.false_ne_true
        rw [if_neg hthere, Txn.eval, hrow]
        unfold keepOwner
        dsimp only
        split_ifs with hindex
        · have hafter := directoryOf_insertIdentifier h hu ident
          have hready : RosterReady (s.insert (.userIdentifier ws ident.ns ident.value) ⟨u.id⟩) n :=
            h.insertIdentifier hu
          obtain ⟨hbindable, hnot⟩ := ih hready ((AList.lookup_insert_ne (by simp)).trans hu)
          rw [hafter, Directory.foreign_own hforeign,
            Directory.bindable_own hforeign fun _ => hindex] at hbindable
          rw [hafter, Directory.bindable_own hforeign fun _ => hindex] at hnot
          refine ⟨fun hbind => ?_, fun hnotBind => hnot fun hbind => hnotBind ?_⟩
          · have hresult := hbindable (hbind.2 rfl).2
            cases hfirst : idents.find? ((directoryOf ws s).foreign ref) with
            | none =>
              rw [hfirst] at hresult
              obtain ⟨s', heval, hclaimed⟩ := hresult
              exact ⟨s', heval, hclaimed.cons_inserted h hu hrow⟩
            | some taken =>
              rw [hfirst] at hresult
              exact hresult
          · exact ⟨⟨rfl, rfl⟩, fun _ => ⟨fun _ => hindex, hbind⟩⟩
        · refine ⟨fun hbind => absurd ((hbind.2 rfl).1 hfree) hindex, fun _ => ?_⟩
          exact ⟨_, uncaught_database _, rfl⟩

theorem userValues_eq (id : ℕ) : userValues conn id item =
    (userValues conn 0 item).map fun row => { row with id := id } := by
  unfold userValues
  simp only [bind, Except.bind]
  rcases textArgument item.kind with e | kind
  · rfl
  dsimp only
  rcases liftDb (userTypeOfKind kind) with e | userType
  · rfl
  dsimp only
  rcases textArgument item.userRef with e | _
  · rfl
  dsimp only
  rcases optionalText item.displayName with e | displayName
  · rfl
  dsimp only
  rcases optionalText item.role with e | jobRole
  · rfl
  dsimp only
  rcases optionalText item.team with e | team
  · rfl
  dsimp only
  rcases dateArgument conn item.effectiveFrom with e | effectiveFrom
  · rfl
  dsimp only
  rcases dateArgument conn item.effectiveTo with e | effectiveTo
  · rfl
  rcases effectiveFrom with _ | first <;> rcases effectiveTo with _ | last
  · rfl
  · rfl
  · rfl
  · dsimp only
    split_ifs <;> rfl

theorem userValues_uncaught {id : ℕ} {e : Failure} (h : userValues conn id item = .error e) :
    e.Uncaught := by
  rintro err rfl
  have hupsert : upsertUser conn 0 id item none = .error (.tfError err) := by
    unfold upsertUser
    rw [h]
    rfl
  exact upsertUser_not_tfError hupsert

theorem status_of_userValues {id : ℕ} {row : UserRow} (h : userValues conn id item = .ok row) :
    row.userStatus = .active := by
  unfold userValues at h
  obtain ⟨_, -, h⟩ := bind_eq_ok h
  obtain ⟨_, -, h⟩ := bind_eq_ok h
  obtain ⟨_, -, h⟩ := bind_eq_ok h
  obtain ⟨_, -, h⟩ := bind_eq_ok h
  obtain ⟨_, -, h⟩ := bind_eq_ok h
  obtain ⟨_, -, h⟩ := bind_eq_ok h
  obtain ⟨effectiveFrom, -, h⟩ := bind_eq_ok h
  obtain ⟨effectiveTo, -, h⟩ := bind_eq_ok h
  rcases effectiveFrom with _ | first <;> rcases effectiveTo with _ | last
  · cases h
    rfl
  · cases h
    rfl
  · cases h
    rfl
  · dsimp only at h
    split_ifs at h
    cases h
    rfl

theorem upsertUser_ok {values : UserRow} (hvalues : userValues conn 0 item = .ok values)
    (hroom : s.lookup (.user ws item.userRef) = none →
      conn.indexable (.user ws item.userRef) = true) :
    ∃ row, upsertUser conn ws n item (s.lookup (.user ws item.userRef)) = .ok row ∧
      TakesId s n ws item.userRef row ∧
        row.anonymous = { values with
          id := 0
          userStatus := ((directoryOf ws s).people item.userRef).elim .active
            UserRow.userStatus } := by
  have hstatus := status_of_userValues hvalues
  unfold upsertUser
  rw [userValues_eq, hvalues]
  cases hbefore : s.lookup (.user ws item.userRef) with
  | none =>
    refine ⟨{ values with id := n }, ?_, ⟨fun old hold => ?_, fun _ => rfl⟩, ?_⟩
    · change (if _ then _ else _) = _
      rw [if_pos (hroom hbefore)]
    · cases hbefore.symm.trans hold
    · unfold directoryOf
      simp [hbefore, UserRow.anonymous, hstatus]
  | some old =>
    refine ⟨{ values with id := old.id, userStatus := old.userStatus }, rfl,
      ⟨fun old' hold => ?_, fun hnone => ?_⟩, ?_⟩
    · rw [Option.some.inj (hbefore.symm.trans hold)]
    · cases hbefore.symm.trans hnone
    · unfold directoryOf
      simp [hbefore, UserRow.anonymous]

/-- What an item that is stored leaves. -/
structure ItemStored (conn : RosterConnection) (ws : ℕ) (item : RosterUser) (s s' : Db) (n : ℕ) :
    Prop where
  directory : directoryOf ws s' = (directoryOf ws s).upsert conn item
  ready : RosterReady s' (n + 1)
  ids : KeepsIds s s'
  owners : KeepsOwners s s'
  others : ∀ k, (∀ ref, k ≠ .user ws ref) → (∀ ns value, k ≠ .userIdentifier ws ns value) →
    s'.lookup k = s.lookup k

/-- The transaction of an item refines its effect on the directory. -/
theorem eval_upsertRosterUser (item : RosterUser) (h : RosterReady s n) :
    ((directoryOf ws s).Storable conn ws item →
      match (directoryOf ws s).firstForeign item with
      | none => ∃ s', (upsertRosterUser conn ws item).eval s n = (.ok (.done, s'), n + 1) ∧
          ItemStored conn ws item s s' n
      | some ident => (upsertRosterUser conn ws item).eval s n =
          (.error (.tfError (takenError ident)), n + 1)) ∧
    (¬ (directoryOf ws s).Storable conn ws item →
      ∃ e : Failure, e.Uncaught ∧
        (upsertRosterUser conn ws item).eval s n = (.error e, n + 1)) := by
  unfold upsertRosterUser
  rw [Txn.eval, Txn.eval]
  cases hvalues : userValues conn 0 item with
  | error e =>
    have hupsert : upsertUser conn ws n item (s.lookup (.user ws item.userRef)) = .error e := by
      unfold upsertUser
      rw [userValues_eq, hvalues]
      rfl
    rw [hupsert]
    refine ⟨fun hstorable => ?_, fun _ => ⟨e, userValues_uncaught hvalues, rfl⟩⟩
    obtain ⟨row, hrow⟩ := hstorable.values
    cases hvalues.symm.trans hrow
  | ok values =>
    have hpeople : (directoryOf ws s).people item.userRef = none ↔
        s.lookup (.user ws item.userRef) = none := Option.map_eq_none_iff
    by_cases hroom : s.lookup (.user ws item.userRef) = none →
        conn.indexable (.user ws item.userRef) = true
    swap
    · push Not at hroom
      have hupsert : upsertUser conn ws n item (s.lookup (.user ws item.userRef)) =
          .error (.database .indexRowSize) := by
        unfold upsertUser
        rw [userValues_eq, hvalues, hroom.1]
        change (if _ then _ else _) = _
        rw [if_neg hroom.2]
      rw [hupsert]
      refine ⟨fun hstorable => ?_, fun _ => ⟨_, uncaught_database _, rfl⟩⟩
      exact absurd (hstorable.user (hpeople.2 hroom.1)) hroom.2
    obtain ⟨row, hupsert, hid, hanonymous⟩ := upsertUser_ok hvalues hroom
    rw [hupsert]
    dsimp only
    have hready := h.insertUser hid
    have hdirectory := directoryOf_insertUser h hid hanonymous
    obtain ⟨hbindable, hnot⟩ :=
      @eval_addIdentifiers conn _ _ _ _ _ item.identifiers hready (AList.lookup_insert s)
    have hforeign : (directoryOf ws (s.insert (.user ws item.userRef) row)).foreign =
        (directoryOf ws s).foreign := by
      rw [hdirectory]
      rfl
    have hsame : (directoryOf ws (s.insert (.user ws item.userRef) row)).Bindable conn ws
        item.userRef item.identifiers ↔
          (directoryOf ws s).Bindable conn ws item.userRef item.identifiers := by
      rw [hdirectory, Directory.bindable_person]
    rw [hsame, hforeign] at hbindable
    rw [hsame] at hnot
    refine ⟨fun hstorable => ?_, fun hnotStorable => hnot fun hbind => hnotStorable ?_⟩
    · have hresult := hbindable hstorable.identifiers
      unfold Directory.firstForeign
      cases hfirst : item.identifiers.find? ((directoryOf ws s).foreign item.userRef) with
      | some taken =>
        rw [hfirst] at hresult
        exact hresult
      | none =>
        rw [hfirst] at hresult
        obtain ⟨s', heval, hclaimed⟩ := hresult
        refine ⟨s', heval, ?_, hclaimed.ready, ?_, ?_, ?_⟩
        · rw [hclaimed.directory, hdirectory, Directory.upsert, hvalues]
        · intro ws' ref' u hu
          obtain ⟨u', hu', hid'⟩ := hid.keepsIds ws' ref' u hu
          exact ⟨u', (hclaimed.others _ (by simp)).trans hu', hid'⟩
        · intro ws' ns value r hr
          exact hclaimed.owners _ _ _ _ ((AList.lookup_insert_ne (by simp)).trans hr)
        · intro k huser hident
          exact (hclaimed.others k hident).trans (AList.lookup_insert_ne (huser _))
    · exact ⟨⟨values, hvalues⟩, fun hnone => hroom (hpeople.1 hnone), hbind⟩

end TrueFigure.Server
