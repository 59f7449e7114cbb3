import TrueFigure.Server.RosterOwnership
import TrueFigure.Server.RosterWindows

/-!
# Identities and the order of rows

`_resolve_identity` against the physical order of the rows. Every query of it goes
by a unique key but one: the value of a field without a declaration is matched with
the identifiers of all namespaces under `LIMIT 1`.
-/
namespace TrueFigure.Server

open TrueFigure.Library TrueFigure.Python

/-- The same rows in another physical order. -/
def Reordered (s s' : Db) : Prop := s'.entries.Perm s.entries

/-- A connection that scans its tables: `LIMIT 1` returns the first row. -/
def scanning (dayOf : ℤ → ℤ) : Connection := ⟨dayOf, List.head?, fun _ => true⟩

/-- The pair `_resolve_identity` returns is the same for every physical order. -/
def OrderFree (dayOf : ℤ → ℤ) (s : Db) (ev : ClaimedEvent) : Prop :=
  ∀ s', Reordered s s' →
    identityOf (scanning dayOf) s' ev = identityOf (scanning dayOf) s ev

/-- A user who is not blocked and whose window has closed before the day. -/
def ClosedBefore (u : UserRow) (day : ℤ) : Prop :=
  u.userStatus ≠ .blocked ∧ ∃ last, u.effectiveTo = some last ∧ last < day

/-- Where no declaration applies to the field, identifiers with the event's value
that belong to different users belong to users of closed windows. -/
def OnePerson (dayOf : ℤ → ℤ) (s : Db) (ev : ClaimedEvent) : Prop :=
  ∀ value, ev.get ev.identityField.wire = .str value → value ≠ [] →
    applicableNamespace s ev.workspaceId ev.row.deploymentId ev.identityField ev.sourceRef = none →
    ∀ ns ns' (row row' : UserIdentifierRow),
      s.lookup (.userIdentifier ev.workspaceId ns value) = some row →
      s.lookup (.userIdentifier ev.workspaceId ns' value) = some row' →
      row.userId ≠ row'.userId →
        ∀ ref (u : UserRow), s.lookup (.user ev.workspaceId ref) = some u → u.id = row.userId →
          ClosedBefore u (dayOf ev.occurredAt)

/-! ### Queries by a unique key -/

section

variable {s s' : Db} {conn : Connection} {ev : ClaimedEvent} {dayOf : ℤ → ℤ} {userId : ℕ}

theorem Reordered.lookup (h : Reordered s s') (k : RowKey) : s'.lookup k = s.lookup k :=
  AList.perm_lookup h

theorem reordered_insert {k : RowKey} {r : Row k} (h : s.lookup k = some r) :
    Reordered s (s.insert k r) := by
  have hmem : (⟨k, r⟩ : Sigma Row) ∈ s.entries := AList.mem_lookup_iff.1 h
  obtain ⟨b, l₁, l₂, -, hs, herase⟩ := List.exists_of_kerase (List.mem_keys_of_mem hmem)
  have hb : b = r := by
    have hold : (⟨k, b⟩ : Sigma Row) ∈ s.entries := by simp [hs]
    exact s.nodupKeys.eq_of_mk_mem hold hmem
  unfold Reordered
  rw [AList.entries_insert, herase, hs, hb]
  exact List.perm_middle.symm

theorem RosterKeys.reordered (hkeys : RosterKeys s) (h : Reordered s s') : RosterKeys s' := by
  refine ⟨fun ws ref ws' ref' u u' hu hu' => ?_, fun ws ns value row hrow => ?_⟩
  · rw [h.lookup] at hu hu'
    exact hkeys.unique ws ref ws' ref' u u' hu hu'
  · rw [h.lookup] at hrow
    obtain ⟨ref, u, hu, hid⟩ := hkeys.referential ws ns value row hrow
    exact ⟨ref, u, (h.lookup _).trans hu, hid⟩

theorem userById_eq_some (hkeys : RosterKeys s) {u : UserRow} :
    userById s userId = some u ↔ ∃ ws ref, s.lookup (.user ws ref) = some u ∧ u.id = userId := by
  refine ⟨lookup_of_userById, ?_⟩
  rintro ⟨ws, ref, hu, rfl⟩
  obtain ⟨found, hfound⟩ := userById_isSome hu
  obtain ⟨ws', ref', hu', hid⟩ := lookup_of_userById hfound
  obtain ⟨rfl, rfl⟩ := hkeys.unique _ _ _ _ _ _ hu hu' hid.symm
  cases hu.symm.trans hu'
  exact hfound

theorem Reordered.userById_eq (hkeys : RosterKeys s) (h : Reordered s s') :
    userById s' userId = userById s userId := by
  refine Option.ext fun u => ?_
  rw [userById_eq_some hkeys, userById_eq_some (hkeys.reordered h)]
  simp only [h.lookup]

theorem Reordered.classified_eq (hkeys : RosterKeys s) (h : Reordered s s')
    {conn' : Connection} (hday : conn'.dayOf = conn.dayOf) :
    classified conn' s' ev userId = classified conn s ev userId := by
  unfold classified
  rw [h.userById_eq hkeys, hday]

theorem Reordered.applicableNamespace_eq (h : Reordered s s') {ws deploymentId : ℕ}
    {field : IdField} {sourceRef : PyStr} :
    applicableNamespace s' ws deploymentId field sourceRef =
      applicableNamespace s ws deploymentId field sourceRef := by
  unfold applicableNamespace activeNamespace
  simp only [h.lookup]

theorem Reordered.usersByIdentifier (h : Reordered s s') (ws : ℕ) (value : PyStr) :
    (usersByIdentifier s' ws value).Perm (usersByIdentifier s ws value) :=
  h.filterMap _

/-! ### What an identity comes to -/

theorem classified_closed {u : UserRow} (hu : userById s userId = some u)
    (hclosed : ClosedBefore u (conn.dayOf ev.occurredAt)) :
    classified conn s ev userId = .ok (none, none) := by
  obtain ⟨hstatus, last, hlast, hlate⟩ := hclosed
  unfold classified
  simp [hu, hstatus, hlast, hlate]

/-- A classification that names a user names the one asked for. -/
theorem closedBefore_of_classified {other : ℕ} {u : UserRow} (hu : userById s userId = some u)
    (hne : userId ≠ other) (h : classified conn s ev userId = classified conn s ev other) :
    ClosedBefore u (conn.dayOf ev.occurredAt) := by
  have hother : ∀ x, classified conn s ev other ≠ .ok (some userId, x) := by
    intro x hx
    unfold classified at hx
    split at hx
    · cases hx
    · split_ifs at hx
      · exact hne (Option.some.inj (Prod.mk.inj (Except.ok.inj hx)).1).symm
      · cases hx
      · exact hne (Option.some.inj (Prod.mk.inj (Except.ok.inj hx)).1).symm
  by_cases hblocked : u.userStatus = .blocked
  · refine absurd (h.symm.trans ?_) (hother (some .unresolvedIdentity))
    unfold classified
    simp [hu, hblocked]
  by_cases hclosed : (u.effectiveTo.any fun last => last < conn.dayOf ev.occurredAt) = true
  · obtain ⟨last, hlast, hlate⟩ := (Option.any_eq_true _ _).1 hclosed
    exact ⟨hblocked, last, hlast, of_decide_eq_true hlate⟩
  · refine absurd (h.symm.trans ?_) (hother (exclusionByType u.userType))
    unfold classified
    simp [hu, hblocked, hclosed]

/-- Without a declaration the first identifier of the value decides. -/
theorem identityOf_undeclared {value : PyStr}
    (hvalue : ev.get ev.identityField.wire = .str value) (hne : value ≠ [])
    (hundeclared : applicableNamespace s ev.workspaceId ev.row.deploymentId ev.identityField
      ev.sourceRef = none) :
    identityOf conn s ev =
      match conn.limitOne (usersByIdentifier s ev.workspaceId value) <|>
          (s.lookup (.user ev.workspaceId value)).map UserRow.id with
      | some userId => classified conn s ev userId
      | none => .ok (none, none) := by
  have htruthy : (Json.str value).truthy = true := by
    cases value with
    | nil => exact absurd rfl hne
    | cons c cs => rfl
  have hmatched : matchedUser conn s ev ev.identityField value =
      (conn.limitOne (usersByIdentifier s ev.workspaceId value) <|>
        (s.lookup (.user ev.workspaceId value)).map UserRow.id) := by
    rewrite [matchedUser, hundeclared]
    rfl
  rewrite [identityOf, hvalue, ← hmatched]
  exact if_pos htruthy

/-- With a declaration, and without a reference to match, no query depends on the
order. -/
theorem Reordered.identityOf_declared (hkeys : RosterKeys s) (h : Reordered s s')
    {conn' : Connection} (hday : conn'.dayOf = conn.dayOf)
    (hdeclared : ∀ value, ev.get ev.identityField.wire = .str value → value ≠ [] →
      applicableNamespace s ev.workspaceId ev.row.deploymentId ev.identityField ev.sourceRef ≠
        none) :
    identityOf conn' s' ev = identityOf conn s ev := by
  unfold identityOf
  extract_lets value
  split_ifs with htruthy
  · cases hvalue : value with
    | str text =>
      have hne : text ≠ [] := by
        rintro rfl
        rw [hvalue] at htruthy
        cases htruthy
      obtain ⟨declared, hns⟩ := Option.ne_none_iff_exists'.1 (hdeclared text hvalue hne)
      have hmatched : matchedUser conn' s' ev ev.identityField text =
          matchedUser conn s ev ev.identityField text := by
        simp only [matchedUser, h.applicableNamespace_eq, hns, userByIdentifier, h.lookup]
      dsimp only
      rw [hmatched]
      simp only [h.classified_eq hkeys hday]
    | _ => rfl
  · rfl

theorem scan_insert {ws : ℕ} {ns value : PyStr} {row : UserIdentifierRow} :
    (scanning dayOf).limitOne (usersByIdentifier
      (s.insert (.userIdentifier ws ns value) row) ws value) = some row.userId := by
  unfold usersByIdentifier
  rw [AList.entries_insert, List.filterMap_cons]
  simp [scanning]

/-- An identifier of the value may come first, and then its user is classified. -/
theorem OrderFree.classified_eq (h : OrderFree dayOf s ev) (hkeys : RosterKeys s)
    {value : PyStr} (hvalue : ev.get ev.identityField.wire = .str value) (hne : value ≠ [])
    (hundeclared : applicableNamespace s ev.workspaceId ev.row.deploymentId ev.identityField
      ev.sourceRef = none) {ns : PyStr} {row : UserIdentifierRow}
    (hrow : s.lookup (.userIdentifier ev.workspaceId ns value) = some row) :
    identityOf (scanning dayOf) s ev = classified (scanning dayOf) s ev row.userId := by
  have hfirst := reordered_insert hrow
  rw [← h _ hfirst,
    identityOf_undeclared hvalue hne (hfirst.applicableNamespace_eq.trans hundeclared), scan_insert]
  exact hfirst.classified_eq hkeys rfl

theorem OnePerson.classified_eq (h : OnePerson dayOf s ev) (hkeys : RosterKeys s)
    {value : PyStr} (hvalue : ev.get ev.identityField.wire = .str value) (hne : value ≠ [])
    (hundeclared : applicableNamespace s ev.workspaceId ev.row.deploymentId ev.identityField
      ev.sourceRef = none) {u v : ℕ} (hu : u ∈ usersByIdentifier s ev.workspaceId value)
    (hv : v ∈ usersByIdentifier s ev.workspaceId value) :
    classified (scanning dayOf) s ev u = classified (scanning dayOf) s ev v := by
  by_cases huv : u = v
  · rw [huv]
  obtain ⟨ns, row, hrow, rfl⟩ := mem_usersByIdentifier hu
  obtain ⟨ns', row', hrow', rfl⟩ := mem_usersByIdentifier hv
  obtain ⟨ref, user, huser, hid⟩ := hkeys.referential _ _ _ _ hrow
  obtain ⟨ref', user', huser', hid'⟩ := hkeys.referential _ _ _ _ hrow'
  have hclosed := h value hvalue hne hundeclared ns ns' row row' hrow hrow' huv ref user huser hid
  have hclosed' := h value hvalue hne hundeclared ns' ns row' row hrow' hrow (Ne.symm huv) ref'
    user' huser' hid'
  rw [classified_closed ((userById_eq_some hkeys).2 ⟨_, ref, huser, hid⟩) hclosed,
    classified_closed ((userById_eq_some hkeys).2 ⟨_, ref', huser', hid'⟩) hclosed']

/-- For every roster and event: what an identity comes to is the same in every
physical order exactly when the value of an undeclared field is registered for one
person, those of closed windows apart. -/
theorem orderFree_iff (hkeys : RosterKeys s) : OrderFree dayOf s ev ↔ OnePerson dayOf s ev := by
  constructor
  · intro h value hvalue hne hundeclared ns ns' row row' hrow hrow' hdiffer ref u hu hid
    have hsame : classified (scanning dayOf) s ev row.userId =
        classified (scanning dayOf) s ev row'.userId :=
      (h.classified_eq hkeys hvalue hne hundeclared hrow).symm.trans
        (h.classified_eq hkeys hvalue hne hundeclared hrow')
    exact closedBefore_of_classified ((userById_eq_some hkeys).2 ⟨_, ref, hu, hid⟩) hdiffer hsame
  · intro h s' hs'
    by_cases hdeclared : ∀ value, ev.get ev.identityField.wire = .str value → value ≠ [] →
        applicableNamespace s ev.workspaceId ev.row.deploymentId ev.identityField ev.sourceRef ≠
          none
    · exact hs'.identityOf_declared hkeys rfl hdeclared
    push Not at hdeclared
    obtain ⟨value, hvalue, hne, hundeclared⟩ := hdeclared
    rw [identityOf_undeclared hvalue hne hundeclared, identityOf_undeclared hvalue hne
      (hs'.applicableNamespace_eq.trans hundeclared), hs'.lookup]
    have hperm := hs'.usersByIdentifier ev.workspaceId value
    cases husers : usersByIdentifier s ev.workspaceId value with
    | nil =>
      rw [husers] at hperm
      rw [hperm.eq_nil]
      simp only [scanning, hs'.classified_eq hkeys rfl]
    | cons u us =>
      cases husers' : usersByIdentifier s' ev.workspaceId value with
      | nil =>
        rw [husers, husers'] at hperm
        cases hperm.symm.eq_nil
      | cons v vs =>
        have hu : u ∈ usersByIdentifier s ev.workspaceId value := by
          rw [husers]
          exact List.mem_cons_self
        have hv : v ∈ usersByIdentifier s ev.workspaceId value :=
          hperm.mem_iff.1 (by rw [husers']; exact List.mem_cons_self)
        change classified (scanning dayOf) s' ev v = classified (scanning dayOf) s ev u
        rw [hs'.classified_eq hkeys rfl]
        exact h.classified_eq hkeys hvalue hne hundeclared hv hu

/-- Whatever row a plan returns under `LIMIT 1`, it is the first one of some order. -/
theorem exists_order (hkeys : RosterKeys s) (hpicks : conn.PicksRow)
    (hreturns : ∀ users, conn.limitOne users = none → users = []) :
    ∃ s', Reordered s s' ∧ identityOf (scanning conn.dayOf) s' ev = identityOf conn s ev := by
  have hrefl : Reordered s s := List.Perm.refl _
  by_cases hdeclared : ∀ value, ev.get ev.identityField.wire = .str value → value ≠ [] →
      applicableNamespace s ev.workspaceId ev.row.deploymentId ev.identityField ev.sourceRef ≠ none
  · exact ⟨s, hrefl, hrefl.identityOf_declared hkeys rfl hdeclared⟩
  push Not at hdeclared
  obtain ⟨value, hvalue, hne, hundeclared⟩ := hdeclared
  cases hpicked : conn.limitOne (usersByIdentifier s ev.workspaceId value) with
  | none =>
    refine ⟨s, hrefl, ?_⟩
    rw [identityOf_undeclared hvalue hne hundeclared, identityOf_undeclared hvalue hne hundeclared,
      hpicked, hreturns _ hpicked]
    rfl
  | some userId =>
    obtain ⟨ns, row, hrow, rfl⟩ := mem_usersByIdentifier (hpicks _ _ hpicked)
    have hfirst := reordered_insert hrow
    refine ⟨_, hfirst, ?_⟩
    rw [identityOf_undeclared hvalue hne (hfirst.applicableNamespace_eq.trans hundeclared),
      identityOf_undeclared hvalue hne hundeclared, hpicked, scan_insert]
    exact hfirst.classified_eq hkeys rfl

end

/-! ### One value, two persons -/

/-- Two users share a value, as an address and as a badge. -/
def sharedValue : List RosterUser :=
  [{ userRef := py "ann", identifiers := [⟨py "email", py "x"⟩] },
    { userRef := py "bob", identifiers := [⟨py "badge", py "x"⟩] }]

/-- What a roster request leaves in an empty workspace. -/
def rosterOf (users : List RosterUser) : Db := ((upsertRoster noDates 1 users).run ∅ 1).2.1

/-- An activity of `x`, in a field no declaration covers. -/
def sharedEvent : ClaimedEvent where
  workspaceId := 1
  eventKey := py "k"
  occurredAt := 5
  row := { waitingEvent with payload := [(py "user_ref", .str (py "x"))] }

def storedUser (id : ℕ) : UserRow where
  id := id
  userType := .user
  userStatus := .active
  displayName := none
  jobRole := none
  team := none
  effectiveFrom := none
  effectiveTo := none

set_option maxRecDepth 4000 in
theorem entries_sharedValue : (rosterOf sharedValue).entries =
    [⟨.userIdentifier 1 (py "badge") (py "x"), (⟨2⟩ : UserIdentifierRow)⟩,
      ⟨.user 1 (py "bob"), storedUser 2⟩,
      ⟨.userIdentifier 1 (py "email") (py "x"), (⟨1⟩ : UserIdentifierRow)⟩,
      ⟨.user 1 (py "ann"), storedUser 1⟩] := by
  rfl

theorem user_sharedValue {ws : ℕ} {ref : PyStr} {u : UserRow}
    (h : (rosterOf sharedValue).lookup (.user ws ref) = some u) :
    (ws = 1 ∧ ref = py "bob" ∧ u.id = 2) ∨ (ws = 1 ∧ ref = py "ann" ∧ u.id = 1) := by
  have hmem : (⟨.user ws ref, u⟩ : Sigma Row) ∈ (rosterOf sharedValue).entries :=
    AList.mem_lookup_iff.1 h
  rw [entries_sharedValue] at hmem
  simp only [List.mem_cons, List.not_mem_nil, or_false] at hmem
  rcases hmem with hentry | hentry | hentry | hentry
  · cases hentry
  · cases hentry
    exact .inl ⟨rfl, rfl, rfl⟩
  · cases hentry
  · cases hentry
    exact .inr ⟨rfl, rfl, rfl⟩

set_option maxRecDepth 4000 in
theorem rosterKeys_sharedValue : RosterKeys (rosterOf sharedValue) := by
  refine ⟨fun ws ref ws' ref' u u' hu hu' hid => ?_, fun ws ns value row hrow => ?_⟩
  · rcases user_sharedValue hu with ⟨rfl, rfl, h⟩ | ⟨rfl, rfl, h⟩ <;>
      rcases user_sharedValue hu' with ⟨rfl, rfl, h'⟩ | ⟨rfl, rfl, h'⟩
    · exact ⟨rfl, rfl⟩
    · omega
    · omega
    · exact ⟨rfl, rfl⟩
  · have hmem : (⟨.userIdentifier ws ns value, row⟩ : Sigma Row) ∈
        (rosterOf sharedValue).entries := AList.mem_lookup_iff.1 hrow
    rw [entries_sharedValue] at hmem
    simp only [List.mem_cons, List.not_mem_nil, or_false] at hmem
    rcases hmem with hentry | hentry | hentry | hentry
    · cases hentry
      exact ⟨py "bob", storedUser 2, by rfl, rfl⟩
    · cases hentry
    · cases hentry
      exact ⟨py "ann", storedUser 1, by rfl, rfl⟩
    · cases hentry

theorem orderFree_iff_sharedValue :
    OrderFree utcConnection.dayOf (rosterOf sharedValue) sharedEvent ↔
      OnePerson utcConnection.dayOf (rosterOf sharedValue) sharedEvent :=
  orderFree_iff rosterKeys_sharedValue

set_option maxRecDepth 4000 in
/-- The order of two rows decides whose activity it is. -/
theorem sharedValue_orderMatters : ¬ ∀ users ev, RosterKeys (rosterOf users) →
    OrderFree utcConnection.dayOf (rosterOf users) ev := by
  intro h
  have hfree := h sharedValue sharedEvent rosterKeys_sharedValue
  have hvalue : sharedEvent.get sharedEvent.identityField.wire = .str (py "x") := rfl
  have hemail : (rosterOf sharedValue).lookup (.userIdentifier 1 (py "email") (py "x")) =
      some ⟨1⟩ := by rfl
  have hbadge : (rosterOf sharedValue).lookup (.userIdentifier 1 (py "badge") (py "x")) =
      some ⟨2⟩ := by rfl
  have hann := hfree.classified_eq rosterKeys_sharedValue hvalue (by decide) rfl hemail
  have hbob := hfree.classified_eq rosterKeys_sharedValue hvalue (by decide) rfl hbadge
  have hone : classified (scanning utcConnection.dayOf) (rosterOf sharedValue) sharedEvent 1 =
      .ok (some 1, none) := by rfl
  have htwo : classified (scanning utcConnection.dayOf) (rosterOf sharedValue) sharedEvent 2 =
      .ok (some 2, none) := by rfl
  have hsame := hone.symm.trans (hann.symm.trans (hbob.trans htwo))
  cases hsame

end TrueFigure.Server
