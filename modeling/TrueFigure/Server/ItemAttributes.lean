import TrueFigure.Server.GaugeOrder

/-!
# The attributes of work items

`_join_work_item` writes what a lifecycle event carries over what the item has. The row of an
item holds the latest size and the latest category as long as no event that carries one leaves
`accepted` after a later one has; an event that arrives late, or commits late, breaks it.
-/
namespace TrueFigure.Server

open TrueFigure.Library TrueFigure.Python

def EventRow.itemRef (row : EventRow) : Option PyStr :=
  if row.eventType.itemBearing then
    match row.payload.getD (py "work_item_id") .null with
    | .str ref => if ref = [] then none else some ref
    | _ => none
  else none

/-- A nullable column of `work_items`: the field of a payload that sets it, how its parameter
is bound, and where it is stored. -/
structure ItemAttribute (α : Type) where
  field : PyStr
  param : Json → Except DbError (Option α)
  stored : WorkItemRow → Option α

/-- `size_type`. -/
def sizeAttribute : ItemAttribute SizeType := ⟨py "size_band", sizeParam, WorkItemRow.sizeType⟩

def categoryAttribute : ItemAttribute PyStr := ⟨py "category", textParam, WorkItemRow.category⟩

/-- The value is that of a latest event that carries one, given the events by key and time. -/
def Latest {α : Type} (carried : PyStr → ℤ → α → Prop) : Option α → Prop
  | none => ∀ key t x, ¬ carried key t x
  | some x => ∃ key t, carried key t x ∧ ∀ key' t' y, carried key' t' y → t' ≤ t

namespace ItemAttribute

variable {α : Type} (attr : ItemAttribute α)

/-- What an event carries; only a lifecycle event carries anything. -/
def carried (row : EventRow) : Option α :=
  if row.eventType = .lifecycle then
    match attr.param (row.payload.getD attr.field .null) with
    | .ok x => x
    | .error _ => none
  else none

/-- The event under a key and an instant is about the item and carries a value. -/
def Sent (s : Db) (ws : ℕ) (ref : PyStr) (key : PyStr) (t : ℤ) (x : α) : Prop :=
  ∃ row : EventRow, s.lookup (.event ws key t) = some row ∧ row.itemRef = some ref ∧
    attr.carried row = some x

/-- It has left `accepted`. -/
def Settled (s : Db) (ws : ℕ) (ref : PyStr) (key : PyStr) (t : ℤ) (x : α) : Prop :=
  ∃ row : EventRow, s.lookup (.event ws key t) = some row ∧ row.pipelineStatus ≠ .accepted ∧
    row.itemRef = some ref ∧ attr.carried row = some x

/-- Every item holds the latest value of the events that have left `accepted`. -/
def Ok (s : Db) : Prop :=
  ∀ ws ref, Latest (attr.Settled s ws ref) ((s.lookup (.workItem ws ref)).bind attr.stored)

/-- The log settles no event that carries a value for an item of which a later one that
carries one is settled already. -/
def InOrder (log : List (Change Row)) (s : Db) : Prop :=
  ∀ ws key t before (row : EventRow) ref x,
    (⟨.event ws key t, before, row⟩ : Change Row) ∈ log → row.pipelineStatus ≠ .accepted →
    row.itemRef = some ref → attr.carried row = some x →
    ∀ key' t' y, attr.Settled s ws ref key' t' y → t' ≤ t

end ItemAttribute

def itemRowOf (ws : ℕ) (ref : PyStr) : Sigma Row → Option WorkItemRow
  | ⟨.workItem ws' ref', row⟩ => if ws' = ws ∧ ref' = ref then some row else none
  | _ => none

/-- The rows of `work_items` under a reference. -/
def itemRows (s : Db) (ws : ℕ) (ref : PyStr) : List WorkItemRow :=
  s.entries.filterMap (itemRowOf ws ref)

/-- Every item that an event is about has one row, and every row holds the latest size and the
latest category of its events. -/
structure ItemsLatest (s : Db) : Prop where
  one : ∀ ws key t (row : EventRow) ref, s.lookup (.event ws key t) = some row →
    row.itemRef = some ref → ∃ item, itemRows s ws ref = [item]
  size : ∀ ws ref, ∀ item ∈ itemRows s ws ref, Latest (sizeAttribute.Sent s ws ref) item.sizeType
  category : ∀ ws ref, ∀ item ∈ itemRows s ws ref,
    Latest (categoryAttribute.Sent s ws ref) item.category

/-- No two lifecycle events of a workspace have the same instant. -/
def DistinctTimes (s : Db) : Prop :=
  ∀ ws key key' t (row row' : EventRow), s.lookup (.event ws key t) = some row →
    s.lookup (.event ws key' t) = some row' → row.eventType = .lifecycle →
    row'.eventType = .lifecycle → key = key'

/-! ### One more event -/

variable {α : Type} {attr : ItemAttribute α} {s s' : Db} {ws : ℕ} {ref key : PyStr} {t : ℤ}

theorem Latest.congr {carried carried' : PyStr → ℤ → α → Prop} {v : Option α}
    (h : Latest carried v) (heq : ∀ key t x, carried' key t x ↔ carried key t x) :
    Latest carried' v := by
  have hsame : carried' = carried := by
    funext key t x
    exact propext (heq key t x)
  rwa [hsame]

/-- What a further event carries wins, if none that came before it is later. -/
theorem Latest.cons (key : PyStr) (t : ℤ) {carried carried' : PyStr → ℤ → α → Prop}
    {v new : Option α} (h : Latest carried v) (heq : ∀ key' t' x, carried' key' t' x ↔
      carried key' t' x ∨ (key' = key ∧ t' = t ∧ new = some x))
    (hlater : ∀ x, new = some x → ∀ key' t' y, carried key' t' y → t' ≤ t) :
    Latest carried' (new <|> v) := by
  cases new with
  | none =>
    refine h.congr fun key' t' x => (heq key' t' x).trans (or_iff_left ?_)
    rintro ⟨-, -, hx⟩
    cases hx
  | some x =>
    refine ⟨key, t, (heq key t x).2 (.inr ⟨rfl, rfl, rfl⟩), fun key' t' y hy => ?_⟩
    rcases (heq key' t' y).1 hy with hbefore | ⟨-, rfl, -⟩
    · exact hlater x rfl key' t' y hbefore
    · exact le_rfl

/-! ### What one transaction does to an item -/

variable {conn : Connection} {ev : ClaimedEvent} {u : Option ℕ} {x : Option ExclusionReason}
  {w : Option ℕ} {log : List (Change Row)}

theorem itemRef_eq_some (hjoin : ev.row.eventType.itemBearing = true ∧
    (ev.get (py "work_item_id")).truthy = true) (href : ev.get (py "work_item_id") = .str ref) :
    ev.row.itemRef = some ref := by
  obtain ⟨hbearing, htruthy⟩ := hjoin
  have hne : ref ≠ [] := by
    rintro rfl
    rw [href] at htruthy
    cases htruthy
  have hpayload : ev.row.payload.getD (py "work_item_id") .null = .str ref := href
  rw [EventRow.itemRef, if_pos hbearing]
  simp only [hpayload, if_neg hne]

theorem itemRef_eq_none (hskip : ¬ (ev.row.eventType.itemBearing = true ∧
    (ev.get (py "work_item_id")).truthy = true)) : ev.row.itemRef = none := by
  unfold EventRow.itemRef
  split_ifs with hbearing
  · split
    next ref href =>
      split_ifs with hempty
      · rfl
      · refine absurd ⟨hbearing, ?_⟩ hskip
        have hget : ev.get (py "work_item_id") = .str ref := href
        rw [hget, Json.truthy, List.isEmpty_eq_false_iff.2 hempty]
        rfl
    next => rfl
  · rfl

theorem EventLog.item (h : EventLog conn ev u x w log) (hlog : Consistent log s) (ws : ℕ)
    (ref : PyStr) :
    (ws = ev.workspaceId ∧ ev.row.itemRef = some ref ∧
      ∃ id row, (view log s).lookup (.workItem ws ref) = some row ∧
        upsertWorkItem id (ev.lifecycleField (py "size_band"))
          (ev.lifecycleField (py "category")) (s.lookup (.workItem ws ref)) = .ok row) ∨
    (¬ (ws = ev.workspaceId ∧ ev.row.itemRef = some ref) ∧
      (view log s).lookup (.workItem ws ref) = s.lookup (.workItem ws ref)) := by
  obtain ⟨-, joins, -, -, active, metered⟩ := h
  rename_i item activity meter before after statsBefore stats
  have hrest : RowKey.workItem ws ref ∉ locked (⟨ev.rowKey, before, after⟩ ::
      ⟨ev.statsKey conn, statsBefore, stats⟩ :: (activity ++ meter)) := by
    intro hk
    simp only [locked_cons, locked_append, List.mem_cons, List.mem_append] at hk
    rcases hk with hkey | hkey | hk | hk
    · cases hkey
    · cases hkey
    · obtain ⟨c, -, hkey⟩ := active.keys hk
      cases hkey
    · obtain ⟨c, -, hkey⟩ := metered.keys hk
      cases hkey
  have hview : (view (⟨ev.rowKey, some ev.row, ev.row⟩ :: (item ++ ⟨ev.rowKey, before, after⟩ ::
      ⟨ev.statsKey conn, statsBefore, stats⟩ :: (activity ++ meter))) s).lookup
        (.workItem ws ref) =
      (view item (s.insert ev.rowKey ev.row)).lookup (.workItem ws ref) := by
    rw [view_cons, view_append, lookup_view_of_not_locked hrest]
  have hclaimed : (s.insert ev.rowKey ev.row).lookup (.workItem ws ref) =
      s.lookup (.workItem ws ref) := AList.lookup_insert_ne (by simp)
  rw [hview]
  cases joins with
  | skip hskip =>
    refine .inr ⟨fun hitem => ?_, hclaimed⟩
    cases (itemRef_eq_none hskip).symm.trans hitem.2
  | @join ref' itemBefore row href _ hjoin hu =>
    have hitem := itemRef_eq_some hjoin href
    obtain ⟨id, hu⟩ := hu
    rw [view_cons, view_nil]
    by_cases hkey : RowKey.workItem ws ref = .workItem ev.workspaceId ref'
    · obtain ⟨rfl, rfl⟩ := RowKey.workItem.inj hkey
      have hbefore : s.lookup (.workItem ev.workspaceId ref) = itemBefore :=
        hclaimed.symm.trans hlog.2.1
      refine .inl ⟨rfl, hitem, id, row, AList.lookup_insert _, ?_⟩
      rw [hbefore]
      exact hu
    · refine .inr ⟨?_, (AList.lookup_insert_ne hkey).trans hclaimed⟩
      rintro ⟨rfl, hsame⟩
      rw [hitem] at hsame
      cases hsame
      exact hkey rfl

def ItemAttribute.Merged (attr : ItemAttribute α) : Prop :=
  ∀ (ev : ClaimedEvent) id before row, upsertWorkItem id (ev.lifecycleField (py "size_band"))
    (ev.lifecycleField (py "category")) before = .ok row →
      attr.stored row = (attr.carried ev.row <|> before.bind attr.stored)

theorem carried_of_param (attr : ItemAttribute α) {v : Option α}
    (h : attr.param (ev.lifecycleField attr.field) = .ok v)
    (hnull : attr.param .null = .ok none) : attr.carried ev.row = v := by
  unfold ItemAttribute.carried
  unfold ClaimedEvent.lifecycleField at h
  split_ifs at h ⊢ with hlifecycle
  · have hparam : attr.param (ev.row.payload.getD attr.field .null) = .ok v := h
    simp only [hparam]
  · exact Except.ok.inj (hnull.symm.trans h)

theorem sizeAttribute_merged : sizeAttribute.Merged := by
  intro ev id before row h
  obtain ⟨size, hsize, h⟩ := bind_eq_ok h
  obtain ⟨category, -, h⟩ := bind_eq_ok h
  rw [carried_of_param sizeAttribute hsize rfl]
  cases before with
  | none =>
    cases h
    cases size <;> rfl
  | some old =>
    cases h
    rfl

theorem categoryAttribute_merged : categoryAttribute.Merged := by
  intro ev id before row h
  obtain ⟨size, -, h⟩ := bind_eq_ok h
  obtain ⟨category, hcategory, h⟩ := bind_eq_ok h
  rw [carried_of_param categoryAttribute hcategory rfl]
  cases before with
  | none =>
    cases h
    cases category <;> rfl
  | some old =>
    cases h
    rfl

/-- The events settled after a transaction: those before it, and its own. -/
theorem settled_iff (h : EventLog conn ev u x w log) (hlog : Consistent log s) {y : α} :
    attr.Settled (view log s) ws ref key t y ↔ attr.Settled s ws ref key t y ∨
      (RowKey.event ws key t = ev.rowKey ∧ ev.row.itemRef = some ref ∧
        attr.carried ev.row = some y) := by
  have heffect := h.effect hlog
  by_cases hkey : RowKey.event ws key t = ev.rowKey
  · obtain ⟨rfl, rfl, rfl⟩ := RowKey.event.inj hkey
    constructor
    · rintro ⟨row, hrow, -, href, hcarried⟩
      cases heffect.settled.symm.trans hrow
      exact .inr ⟨rfl, href, hcarried⟩
    · rintro (⟨row, hrow, hsettled, -⟩ | ⟨-, href, hcarried⟩)
      · cases heffect.stored.symm.trans hrow
        exact absurd heffect.accepted hsettled
      · exact ⟨_, heffect.settled, settledStatus_ne_accepted x w, href, hcarried⟩
  · have hsame : (view log s).lookup (.event ws key t) = s.lookup (.event ws key t) :=
      heffect.others _ hkey (by simp) (by simp) (by simp) (by simp)
    unfold ItemAttribute.Settled
    rw [hsame]
    exact (or_iff_left fun hown => hkey hown.1).symm

/-- A transaction that is in order keeps the latest values. -/
theorem EventLog.attributeOk (h : EventLog conn ev u x w log) (hlog : Consistent log s)
    (hmerged : attr.Merged) (horder : attr.InOrder log s) (hok : attr.Ok s) :
    attr.Ok (view log s) := by
  intro ws ref
  obtain ⟨-, -, -, hmem⟩ := h.left hlog
  rcases h.item hlog ws ref with ⟨rfl, href, id, row, hrow, hu⟩ | ⟨hother, hsame⟩
  · rw [hrow, Option.bind_some, hmerged ev id _ row hu]
    refine (hok ev.workspaceId ref).cons ev.eventKey ev.occurredAt (fun key' t' y => ?_)
      fun y hy => ?_
    · rw [settled_iff h hlog]
      simp only [RowKey.event.injEq, true_and, href, and_assoc]
    · exact horder _ _ _ _ _ ref y hmem (settledStatus_ne_accepted x w) href hy
  · rw [hsame]
    refine (hok ws ref).congr fun key t y => ?_
    rw [settled_iff h hlog]
    refine or_iff_left fun hown => hother ?_
    exact ⟨(RowKey.event.inj hown.1).1, hown.2.1⟩

/-- The items of the events that have left `accepted` have a row, with the latest values. -/
structure ItemsOk (s : Db) : Prop where
  joined : ∀ ws key t (row : EventRow) ref, s.lookup (.event ws key t) = some row →
    row.pipelineStatus ≠ .accepted → row.itemRef = some ref →
    s.lookup (.workItem ws ref) ≠ none
  size : sizeAttribute.Ok s
  category : categoryAttribute.Ok s

/-- The log settles each size and each category in order. -/
structure ItemsInOrder (log : List (Change Row)) (s : Db) : Prop where
  size : sizeAttribute.InOrder log s
  category : categoryAttribute.InOrder log s

theorem EventLog.itemsOk (h : EventLog conn ev u x w log) (hlog : Consistent log s)
    (horder : ItemsInOrder log s) (hok : ItemsOk s) : ItemsOk (view log s) where
  joined ws key t row ref hrow hsettled href := by
    have heffect := h.effect hlog
    rcases h.item hlog ws ref with ⟨-, -, id, item, hitem, -⟩ | ⟨hother, hsame⟩
    · rw [hitem]
      exact Option.some_ne_none item
    · rw [hsame]
      by_cases hkey : RowKey.event ws key t = ev.rowKey
      · obtain ⟨rfl, rfl, rfl⟩ := RowKey.event.inj hkey
        cases heffect.settled.symm.trans hrow
        exact absurd ⟨rfl, href⟩ hother
      · rw [heffect.others _ hkey (by simp) (by simp) (by simp) (by simp)] at hrow
        exact hok.joined ws key t row ref hrow hsettled href
  size := h.attributeOk hlog sizeAttribute_merged horder.size hok.size
  category := h.attributeOk hlog categoryAttribute_merged horder.category hok.category

theorem processNext_preserves_items :
    PreservesUnder ItemsInOrder ItemsOk (processNext conn) := by
  intro log a s h hlog horder hok
  rcases runs_processNext h with rfl | ⟨ev, u, x, w, hevent⟩
  · exact hok
  · exact hevent.itemsOk hlog horder hok

theorem ItemAttribute.inOrder {log : List (Change Row)} {a : Reply} (h : ProcessedByTime s)
    (hruns : Runs (processNext conn) log (.ok a)) (hlog : Consistent log s) :
    attr.InOrder log s := by
  rintro ws key t before row ref x hmem - - - key' t' y ⟨row', hrow', hsettled, -⟩
  have hleft : LeftEvent.mk t' row' ∈ leftEvents s := mem_leftEvents.2 ⟨ws, key', hrow', hsettled⟩
  exact h.le hruns hlog hmem hleft

theorem itemsInOrder {log : List (Change Row)} {a : Reply} (h : ProcessedByTime s)
    (hruns : Runs (processNext conn) log (.ok a)) (hlog : Consistent log s) :
    ItemsInOrder log s := ⟨ItemAttribute.inOrder h hruns hlog, ItemAttribute.inOrder h hruns hlog⟩

/-! ### Arrivals -/

/-- The change is one of an arrival and writes no item. -/
structure Inbound (c : Change Row) : Prop where
  arrives : Change.Arrives c
  elsewhere : ∀ ws ref, c.key ≠ .workItem ws ref

theorem coversIngestion_inbound : CoversIngestion Inbound :=
  ⟨fun _ _ _ _ haccepted => ⟨⟨rfl, haccepted⟩, by simp⟩, fun _ _ _ => ⟨trivial, by simp⟩⟩

/-- An arrival leaves the items and the settled events alone. -/
theorem Inbound.same {c : Change Row} (hc : Inbound c) (hbefore : s.lookup c.key = c.before) :
    (∀ ws ref, (s.insert c.key c.after).lookup (.workItem ws ref) =
      s.lookup (.workItem ws ref)) ∧
    ∀ ws key t (row : EventRow), row.pipelineStatus ≠ .accepted →
      ((s.insert c.key c.after).lookup (.event ws key t) = some row ↔
        s.lookup (.event ws key t) = some row) := by
  obtain ⟨harrives, helsewhere⟩ := hc
  refine ⟨fun ws ref => AList.lookup_insert_ne (helsewhere ws ref).symm,
    fun ws key t row hsettled => ?_⟩
  by_cases hkey : RowKey.event ws key t = c.key
  · obtain ⟨k, before, after⟩ := c
    obtain rfl : RowKey.event ws key t = k := hkey
    obtain ⟨rfl, haccepted⟩ := harrives
    constructor
    · intro hrow
      cases (AList.lookup_insert s).symm.trans hrow
      exact absurd haccepted hsettled
    · intro hrow
      cases hbefore.symm.trans hrow
  · rw [AList.lookup_insert_ne hkey]

theorem Settled.congr {s s' : Db} (h : ∀ ws key t (row : EventRow),
    row.pipelineStatus ≠ .accepted → (s'.lookup (.event ws key t) = some row ↔
      s.lookup (.event ws key t) = some row)) {y : α} :
    attr.Settled s' ws ref key t y ↔ attr.Settled s ws ref key t y := by
  unfold ItemAttribute.Settled
  constructor
  · rintro ⟨row, hrow, hsettled, hitem⟩
    exact ⟨row, (h ws key t row hsettled).1 hrow, hsettled, hitem⟩
  · rintro ⟨row, hrow, hsettled, hitem⟩
    exact ⟨row, (h ws key t row hsettled).2 hrow, hsettled, hitem⟩

theorem Inbound.itemsOk {c : Change Row} (hc : Inbound c) (hbefore : s.lookup c.key = c.before)
    (hok : ItemsOk s) : ItemsOk (s.insert c.key c.after) := by
  obtain ⟨hitems, hevents⟩ := hc.same hbefore
  have hattribute : ∀ {β : Type} {attr : ItemAttribute β}, attr.Ok s →
      attr.Ok (s.insert c.key c.after) := by
    intro β attr h ws ref
    rw [hitems]
    exact (h ws ref).congr fun key t y => Settled.congr hevents
  refine ⟨fun ws key t row ref hrow hsettled href => ?_, hattribute hok.size,
    hattribute hok.category⟩
  rw [hitems]
  exact hok.joined ws key t row ref ((hevents ws key t row hsettled).1 hrow) hsettled href

theorem itemsInOrder_of_inbound {body : Transaction} (h : Writes Inbound body)
    {log : List (Change Row)} {r : Except Failure Reply} (hruns : Runs body log r) :
    ItemsInOrder log s := by
  have hattribute : ∀ {β : Type} {attr : ItemAttribute β}, attr.InOrder log s := by
    intro β attr ws key t before row ref x hmem hsettled
    obtain ⟨-, haccepted⟩ := (h log r hruns _ hmem).arrives
    exact absurd haccepted hsettled
  exact ⟨hattribute, hattribute⟩

theorem inbound_preserves_items {body : Transaction} (h : Writes Inbound body) :
    Preserves ItemsOk body := by
  intro log a s hruns hlog hok
  have hall := h log _ hruns
  clear hruns
  induction log generalizing s with
  | nil => exact hok
  | cons c log ih =>
    obtain ⟨hbefore, hlog⟩ := hlog
    have hc := hall c List.mem_cons_self
    exact ih _ hlog (hc.itemsOk hbefore hok) fun d hd => hall d (List.mem_cons_of_mem c hd)

/-! ### Every run -/

theorem itemRowOf_eq_some {x : Sigma Row} {item : WorkItemRow}
    (h : itemRowOf ws ref x = some item) : RowKey.workItem ws ref = x.1 := by
  obtain ⟨k, row⟩ := x
  cases k with
  | workItem ws' ref' =>
    rw [itemRowOf] at h
    split_ifs at h with hsame
    rw [hsame.1, hsame.2]
  | _ => cases h

theorem mem_itemRows {item : WorkItemRow} :
    item ∈ itemRows s ws ref ↔ s.lookup (.workItem ws ref) = some item := by
  rw [itemRows, List.mem_filterMap]
  constructor
  · rintro ⟨⟨k, row⟩, hmem, hitem⟩
    obtain rfl : RowKey.workItem ws ref = k := itemRowOf_eq_some hitem
    rw [itemRowOf, if_pos ⟨rfl, rfl⟩] at hitem
    rw [AList.mem_lookup_iff.2 hmem]
    exact hitem
  · intro h
    exact ⟨⟨.workItem ws ref, item⟩, AList.mem_lookup_iff.1 h, if_pos ⟨rfl, rfl⟩⟩

theorem itemRows_eq {item : WorkItemRow} (h : s.lookup (.workItem ws ref) = some item) :
    itemRows s ws ref = [item] := by
  have hnodup : ((itemRows s ws ref).map fun _ => RowKey.workItem ws ref).Nodup :=
    nodup_filterMap_keys fun x _ row hrow => itemRowOf_eq_some hrow
  rw [List.map_const', List.nodup_replicate] at hnodup
  have hmem := mem_itemRows.2 h
  have hpos := List.length_pos_of_mem hmem
  obtain ⟨other, hother⟩ := List.length_eq_one_iff.1 (le_antisymm hnodup hpos)
  rw [hother, List.mem_singleton] at hmem
  rw [hother, hmem]

def NoItems (s : Db) : Prop := ∀ ws ref, s.lookup (RowKey.workItem ws ref) = none

theorem itemsOk_of_unprocessed (h : Unprocessed s) (hitems : NoItems s) : ItemsOk s := by
  have hattribute : ∀ {β : Type} {attr : ItemAttribute β}, attr.Ok s := by
    intro β attr ws ref
    rw [hitems]
    rintro key t y ⟨row, hrow, hsettled, -⟩
    exact hsettled (h.events ws key t row hrow)
  refine ⟨fun ws key t row ref hrow hsettled _ => ?_, hattribute, hattribute⟩
  exact absurd (h.events ws key t row hrow) hsettled

theorem itemsLatest_of_drained (hok : ItemsOk s) (hdrained : Drained s) : ItemsLatest s := by
  have hattribute : ∀ {β : Type} {attr : ItemAttribute β}, attr.Ok s → ∀ ws ref,
      ∀ item ∈ itemRows s ws ref, Latest (attr.Sent s ws ref) (attr.stored item) := by
    intro β attr h ws ref item hitem
    have hlatest := h ws ref
    rw [mem_itemRows.1 hitem, Option.bind_some] at hlatest
    refine hlatest.congr fun key t y => ?_
    constructor
    · rintro ⟨row, hrow, hcarried⟩
      exact ⟨row, hrow, hdrained ws key t row hrow, hcarried⟩
    · rintro ⟨row, hrow, -, hcarried⟩
      exact ⟨row, hrow, hcarried⟩
  refine ⟨fun ws key t row ref hrow href => ?_, hattribute hok.size, hattribute hok.category⟩
  obtain ⟨item, hitem⟩ := Option.ne_none_iff_exists'.1
    (hok.joined ws key t row ref hrow (hdrained ws key t row hrow) href)
  exact ⟨item, itemRows_eq hitem⟩

/-- Any number of workers with any limits among any arrivals: where no event that carries a size
or a category is committed after a later one of its item that carries one, every item has one
row with the latest size and the latest category once nothing waits. -/
theorem itemsLatest_of_inOrder {ι : Type} [DecidableEq ι]
    {w w' : World ι Row Failure Reply Outcome} (hstart : Unprocessed w.committed)
    (hitems : NoItems w.committed)
    (hparties : ∀ i, ∃ p : Process, w.stations i = .resting p ∧
      ((∃ conn limit, p = runPipeline conn limit) ∨ p.All (Writes Inbound)))
    (hrun : Relation.ReflTransGen (GuardedStep (fun _ => True) ItemsInOrder) w w')
    (hdrained : Drained w'.committed) : ItemsLatest w'.committed := by
  refine itemsLatest_of_drained ?_ hdrained
  refine guarded_invariant (itemsOk_of_unprocessed hstart hitems) (fun i => ?_) hrun
  obtain ⟨p, hp, ⟨conn, limit, rfl⟩ | harrives⟩ := hparties i
  · exact ⟨_, hp, runPipelineFrom_all processNext_preserves_items limit _⟩
  · exact ⟨p, hp, Proc.All.mono (fun _ h => (inbound_preserves_items h).under) harrives⟩

/-- Requests and imports are such arrivals. -/
theorem ingestEvents_inbound (env : Env) (intake : Intake) (events : List Submission) :
    (ingestEvents env intake events).All (Writes Inbound) :=
  ingestEvents_writes env intake coversIngestion_inbound events

theorem runImport_inbound (env : Env) (intake : Intake) (lines : List (ℕ × Option Submission)) :
    (runImport env intake lines).All (Writes Inbound) :=
  runImport_writes env intake coversIngestion_inbound lines

/-! ### A late event -/

/-- A lifecycle event of `CLM-1` that carries a size, as ingestion stores it. -/
def sizedEvent (size timestamp : String) : EventRow where
  deploymentId := 1
  eventType := .lifecycle
  originType := .customerSystem
  pipelineStatus := .accepted
  schemaVersion := py "1.0"
  sourceRef := none
  payload := [(py "work_item_id", .str (py "CLM-1")), (py "event", .str (py "created")),
    (py "timestamp", .str (py timestamp)), (py "size_band", .str (py size))]
  resolvedUserId := none
  workItemId := none
  exclusionReason := none

/-- The item was large at 05; a request brings that it was small at 03. -/
def lateSize : World Ticks Row Failure Reply Outcome where
  committed := (∅ : Db).insert (.event 1 (py "k5") 5) (sizedEvent "l" "1970-01-01T00:00:00.005Z")
  sequence := 0
  stations
    | .first => .resting (runPipeline utcConnection 1)
    | .request => .resting
      (insertReading (py "k3") 3 (sizedEvent "s" "1970-01-01T00:00:00.003Z"))
    | .second => .resting (runPipeline utcConnection 1)

theorem unprocessed_lateSize : Unprocessed lateSize.committed := unprocessed_single rfl

theorem noItems_lateSize : NoItems lateSize.committed :=
  fun _ _ => AList.lookup_insert_ne (by simp)

theorem inbound_insertSize {key : PyStr} {t : ℤ} {size timestamp : String} :
    Writes Inbound (.write (.event 1 key t)
      (fun before => liftDb (insertNew (sizedEvent size timestamp) before))
        fun _ => .pure .done) := by
  refine writes_write (fun before after hu => ?_) fun _ => writes_pure _
  cases before with
  | none =>
    cases hu
    exact ⟨⟨rfl, rfl⟩, by simp⟩
  | some old => cases hu

theorem parties_lateSize (i : Ticks) : ∃ p : Process, lateSize.stations i = .resting p ∧
    ((∃ conn limit, p = runPipeline conn limit) ∨ p.All (Writes Inbound)) := by
  cases i with
  | first => exact ⟨_, rfl, .inl ⟨_, 1, rfl⟩⟩
  | second => exact ⟨_, rfl, .inl ⟨_, 1, rfl⟩⟩
  | request =>
    refine ⟨_, rfl, .inr ⟨inbound_insertSize, fun r => ?_⟩⟩
    cases r <;> trivial

theorem resting_lateSize : lateSize.Resting := by
  intro i
  obtain ⟨p, hp, -⟩ := parties_lateSize i
  exact ⟨p, hp⟩

/-- The rows after the request and both ticks. -/
def timelySizeRows : Db × ℕ :=
  rowsLeft (runPipeline utcConnection 1) (rowsLeft (runPipeline utcConnection 1)
    (rowsLeft (insertReading (py "k3") 3 (sizedEvent "s" "1970-01-01T00:00:00.003Z"))
      (lateSize.committed, lateSize.sequence)))

set_option maxRecDepth 4000 in
/-- Where the request comes first, the ticks make the item small and then large. -/
theorem itemsLatest_of_inOrder_lateSize : ∃ w',
    Relation.ReflTransGen (GuardedStep (fun _ => True) ItemsInOrder) lateSize w' ∧
    Drained w'.committed ∧ (leftEvents w'.committed).map LeftEvent.occurredAt = {3, 5} ∧
    ItemsLatest w'.committed ∧
    (itemRows w'.committed 1 (py "CLM-1")).map WorkItemRow.sizeType = [some .l] := by
  obtain ⟨w', hrun, hrows⟩ := run_byTime resting_lateSize rfl rfl rfl
    (fun log r s h => itemsInOrder_of_inbound inbound_insertSize h)
    (fun log a s hsorted h hlog => itemsInOrder hsorted h hlog) (by decide +kernel)
    (by decide +kernel)
  change w'.committed = timelySizeRows.1 at hrows
  have hdrained : Drained w'.committed := by
    rw [hrows, drained_iff]
    decide +kernel
  refine ⟨w', hrun, hdrained, ?_, ?_, ?_⟩
  · rw [hrows]
    decide +kernel
  · exact itemsLatest_of_inOrder unprocessed_lateSize noItems_lateSize parties_lateSize hrun
      hdrained
  · rw [hrows]
    decide +kernel

/-- The rows after the first tick, the request and the second tick. -/
def lateSizeRows : Db × ℕ :=
  let first := ((runPipeline utcConnection 1).run lateSize.committed lateSize.sequence).2
  let request := ((insertReading (py "k3") 3
    (sizedEvent "s" "1970-01-01T00:00:00.003Z")).run first.1 first.2).2
  ((runPipeline utcConnection 1).run request.1 request.2).2

theorem reachable_lateSizeRows : ∃ w', Reachable (fun _ => False) lateSize w' ∧
    w'.committed = lateSizeRows.1 := run_inTurn resting_lateSize rfl rfl rfl

def lateSizeKey : RowKey → Bool
  | .event ws key t => (key = py "k5" ∧ ws = 1 ∧ t = 5) ∨ (key = py "k3" ∧ ws = 1 ∧ t = 3)
  | _ => true

theorem key_of_lateSizeRows {row : EventRow}
    (h : lateSizeRows.1.lookup (.event ws key t) = some row) :
    (key = py "k5" ∧ ws = 1 ∧ t = 5) ∨ (key = py "k3" ∧ ws = 1 ∧ t = 3) := by
  have hall : lateSizeRows.1.keys.all lateSizeKey = true := by decide +kernel
  have hkey : RowKey.event ws key t ∈ lateSizeRows.1.keys :=
    AList.lookup_isSome.1 (by rw [h]; rfl)
  exact of_decide_eq_true (List.all_eq_true.1 hall _ hkey)

theorem distinctTimes_lateSizeRows : DistinctTimes lateSizeRows.1 := by
  intro ws key key' t row row' hrow hrow' _ _
  rcases key_of_lateSizeRows hrow with ⟨rfl, -, ht⟩ | ⟨rfl, -, ht⟩
  · rcases key_of_lateSizeRows hrow' with ⟨rfl, -, -⟩ | ⟨-, -, ht'⟩
    · rfl
    · omega
  · rcases key_of_lateSizeRows hrow' with ⟨-, -, ht'⟩ | ⟨rfl, -, -⟩
    · omega
    · rfl

set_option maxRecDepth 4000 in
/-- The size of 03, written last, overwrites that of 05. -/
theorem lateSize_overwrites : ¬ ∀ w', Reachable (fun _ => False) lateSize w' →
    Drained w'.committed → DistinctTimes w'.committed → ItemsLatest w'.committed := by
  intro h
  obtain ⟨w', hreach, hrows⟩ := reachable_lateSizeRows
  have hlatest := h w' hreach
  rw [hrows] at hlatest
  have hitems := hlatest (drained_iff.2 (by decide +kernel)) distinctTimes_lateSizeRows
  obtain ⟨item, hitem, hsmall⟩ : ∃ item, item ∈ itemRows lateSizeRows.1 1 (py "CLM-1") ∧
      item.sizeType = some .s := ⟨_, List.mem_cons_self, rfl⟩
  have hsize := hitems.size 1 (py "CLM-1") item hitem
  rw [hsmall] at hsize
  obtain ⟨key, t, ⟨row, hrow, -, hcarried⟩, hgreatest⟩ := hsize
  obtain ⟨late, hlate, href, hlarge⟩ : ∃ late,
      lateSizeRows.1.lookup (.event 1 (py "k5") 5) = some late ∧
      late.itemRef = some (py "CLM-1") ∧ sizeAttribute.carried late = some .l :=
    ⟨_, rfl, rfl, rfl⟩
  have hle := hgreatest (py "k5") 5 .l ⟨late, hlate, href, hlarge⟩
  rcases key_of_lateSizeRows hrow with ⟨rfl, -, rfl⟩ | ⟨-, -, rfl⟩
  · cases hlate.symm.trans hrow
    cases hlarge.symm.trans hcarried
  · omega

end TrueFigure.Server
