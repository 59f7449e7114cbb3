import Mathlib.Data.List.Permutation
import TrueFigure.Server.BatchIsolation

/-!
# Reconciliation inputs

Two valid events of different origin, delivered in any order and batching. The
key does not digest the origin, so both rows stand exactly when each event's own
row was there before, or none under its key was and the keys tell the two apart.
-/
namespace TrueFigure.Server

open TrueFigure.Library TrueFigure.Python

variable {env : Env} {s t : Db} {st : Db × ℕ}

/-- An event that passes every check at these rows, under a production key. -/
structure ValidEvent (env : Env) (ws : ℕ) (s : Db) where
  intake : Intake
  sub : Submission
  adm : Admitted
  dep : DeploymentRow
  key : PyStr
  eventType : EventType
  origin : OriginType
  workspace : intake.principal.workspaceId = ws
  production : intake.principal.isTest = false
  keyed : Keyed env intake s sub adm dep key
  typed : EventType.ofWire? (adm.text (py "event_type")) = some eventType
  originated : OriginType.ofWire? (adm.text (py "origin")) = some origin
  storable : jsonbOk (.obj adm.payload) = true

/-- A request with its events, one batch of a delivery. -/
abbrev Batch := Intake × List Submission

/-- The rows and the sequence after the batches, one request each. -/
def runBatches (env : Env) : List Batch → Db × ℕ → Db × ℕ
  | [], st => st
  | b :: batches, st => runBatches env batches ((ingestEvents env b.1 b.2).run st.1 st.2).2

/-- The events of the batches, each with its request. -/
def arrivals (batches : List Batch) : List (Intake × Submission) :=
  batches.flatMap fun b => b.2.map fun sub => (b.1, sub)

/-- One event on its own. -/
def arrive (env : Env) (st : Db × ℕ) (a : Intake × Submission) : Db × ℕ :=
  match settle env a.1 st.1 a.2 with
  | .ok x => x.persisted.apply a.1.principal.workspaceId st
  | .error _ => st

/-- The event comes to something whatever events have been stored. -/
def Steady (env : Env) (s : Db) (a : Intake × Submission) : Prop :=
  ∀ t, SameConfig s t → ∃ x, settle env a.1 t a.2 = .ok x

theorem persistAll_settleAll {intake : Intake} {subs : List Submission}
    (hconfig : SameConfig s st.1) (hsteady : ∀ sub ∈ subs, Steady env s (intake, sub)) :
    persistAll intake.principal.workspaceId (settleAll env intake st subs).1 st =
      (subs.map fun sub => (intake, sub)).foldl (arrive env) st := by
  induction subs generalizing st with
  | nil => rfl
  | cons sub subs ih =>
    obtain ⟨x, hx⟩ := hsteady sub List.mem_cons_self st.1 hconfig
    have hrest := ih (hconfig.apply intake.principal.workspaceId x.persisted)
      fun sub' hsub' => hsteady sub' (List.mem_cons_of_mem _ hsub')
    simp only [settleAll, hx, persistAll, List.foldl_cons, List.map_cons, arrive] at hrest ⊢
    exact hrest

theorem SequenceAhead.persistAll (h : SequenceAhead st) (ws : ℕ) (xs : List Settled) :
    SequenceAhead (persistAll ws xs st) := by
  induction xs generalizing st with
  | nil => exact h
  | cons x xs ih => exact ih (h.apply ws x.persisted)

theorem SameConfig.persistAll (h : SameConfig s st.1) (ws : ℕ) (xs : List Settled) :
    SameConfig s (persistAll ws xs st).1 := by
  induction xs generalizing st with
  | nil => exact h
  | cons x xs ih => exact ih (h.apply ws x.persisted)

/-- However events are batched, they are stored one after the other. -/
theorem runBatches_eq_foldl {batches : List Batch} (hconfig : SameConfig s st.1)
    (hseq : SequenceAhead st) (hlen : ∀ b ∈ batches, b.2.length ≤ maxBatch)
    (hsteady : ∀ a ∈ arrivals batches, Steady env s a) :
    runBatches env batches st = (arrivals batches).foldl (arrive env) st := by
  induction batches generalizing st with
  | nil => rfl
  | cons b batches ih =>
    have hfirst : ∀ sub ∈ b.2, Steady env s (b.1, sub) := by
      intro sub hsub
      exact hsteady _ (by simp only [arrivals, List.flatMap_cons, List.mem_append, List.mem_map]
                          exact .inl ⟨sub, hsub, rfl⟩)
    have hrest : ∀ a ∈ arrivals batches, Steady env s a := by
      intro a ha
      exact hsteady a (by simp only [arrivals, List.flatMap_cons, List.mem_append]
                          exact .inr ha)
    rw [runBatches, run_ingestEvents hseq (hlen b List.mem_cons_self)]
    dsimp only
    rw [ih (hconfig.persistAll _ _) (hseq.persistAll _ _)
      (fun b' hb' => hlen b' (List.mem_cons_of_mem _ hb')) hrest,
      persistAll_settleAll hconfig hfirst]
    simp only [arrivals, List.flatMap_cons, List.foldl_append]

theorem Keyed.congr {intake : Intake} {sub : Submission} {adm : Admitted} {dep : DeploymentRow}
    {key : PyStr} (h : Keyed env intake s sub adm dep key) (hconfig : SameConfig s t) :
    Keyed env intake t sub adm dep key where
  examined := h.examined
  text := h.text
  found := by
    rw [← hconfig.deploymentOf]
    exact h.found
  granted := h.granted
  running := h.running
  formats := by
    rw [← hconfig.namespaceFault]
    exact h.formats
  keyed := h.keyed

namespace ValidEvent

variable {ws : ℕ} (e : ValidEvent env ws s)

def row : EventRow := eventRow e.intake e.adm e.dep e.eventType e.origin

def arrival : Intake × Submission := (e.intake, e.sub)

/-- A row of the event's own origin stands under its key. -/
def Own (t : Db) : Prop :=
  ∃ at' row, t.lookup (.event ws e.key at') = some row ∧ row.originType = e.origin

/-- Some row stands under the event's key. -/
def Taken (t : Db) : Prop := hasEvent t ws e.key = true

theorem settle_eq (hconfig : SameConfig s t) :
    settle env e.intake t e.sub =
      .ok (if hasEvent t ws e.key then ⟨duplicateVerdict e.key, .nothing⟩
        else ⟨acceptedVerdict e.key, .event e.key e.adm.occurredAt e.row⟩) := by
  rw [(e.keyed.congr hconfig).settle_eq, store, e.production, e.workspace]
  simp only [Bool.false_eq_true, if_false]
  split_ifs
  · rfl
  · simp only [eventValues, e.typed, e.originated, e.storable, if_true, liftDb, Except.map, row]

theorem steady : Steady env s e.arrival := fun _ hconfig => ⟨_, e.settle_eq hconfig⟩

theorem arrive_eq (hconfig : SameConfig s st.1) :
    arrive env st e.arrival =
      if hasEvent st.1 ws e.key then st
      else (st.1.insert (.event ws e.key e.adm.occurredAt) e.row, st.2) := by
  simp only [arrive, arrival, e.settle_eq hconfig]
  rw [e.workspace]
  split_ifs <;> rfl

theorem Own.taken {e : ValidEvent env ws s} (h : e.Own t) : e.Taken t := by
  obtain ⟨at', row, hrow, -⟩ := h
  exact hasEvent_iff.2 ⟨at', by rw [hrow]; rfl⟩

/-- A row of another origin is no row of the event's own. -/
theorem own_insert_foreign {k : PyStr} {at' : ℤ} {row : EventRow}
    (hnew : t.lookup (.event ws k at') = none) (hrow : row.originType ≠ e.origin) :
    e.Own (t.insert (.event ws k at') row) ↔ e.Own t := by
  constructor
  · rintro ⟨u, r, hr, horigin⟩
    by_cases hk : RowKey.event ws e.key u = .event ws k at'
    · obtain ⟨-, rfl, rfl⟩ := RowKey.event.inj hk
      rw [AList.lookup_insert] at hr
      obtain rfl := Option.some.inj hr
      exact absurd horigin hrow
    · rw [AList.lookup_insert_ne hk] at hr
      exact ⟨u, r, hr, horigin⟩
  · rintro ⟨u, r, hr, horigin⟩
    refine ⟨u, r, ?_, horigin⟩
    rwa [AList.lookup_insert_ne]
    intro hk
    obtain ⟨-, rfl, rfl⟩ := RowKey.event.inj hk
    cases hnew.symm.trans hr

/-- Once it has arrived, an event has a row of its own where it had one before or
found its key free. -/
theorem own_arrive (hconfig : SameConfig s st.1) :
    e.Own (arrive env st e.arrival).1 ↔ e.Own st.1 ∨ ¬ e.Taken st.1 := by
  rw [e.arrive_eq hconfig]
  split_ifs with htaken
  · simp [Taken, htaken]
  · refine iff_of_true ⟨e.adm.occurredAt, e.row, AList.lookup_insert _, rfl⟩ (.inr htaken)

theorem own_arrive_other {f : ValidEvent env ws s} (horigin : f.origin ≠ e.origin)
    (hconfig : SameConfig s st.1) : e.Own (arrive env st f.arrival).1 ↔ e.Own st.1 := by
  rw [f.arrive_eq hconfig]
  split_ifs with htaken
  · rfl
  · exact e.own_insert_foreign
      (lookup_event_of_not_hasEvent (eq_false_of_ne_true htaken) _) horigin

theorem taken_arrive (f : ValidEvent env ws s) (hconfig : SameConfig s st.1) :
    e.Taken (arrive env st f.arrival).1 ↔ e.Taken st.1 ∨ f.key = e.key := by
  rw [f.arrive_eq hconfig]
  split_ifs with htaken
  · constructor
    · exact .inl
    · rintro (h | hkey)
      · exact h
      · rw [Taken, ← hkey]
        exact htaken
  · exact hasEvent_insert

theorem config_arrive (hconfig : SameConfig s st.1) :
    SameConfig s (arrive env st e.arrival).1 := by
  rw [e.arrive_eq hconfig]
  split_ifs
  · exact hconfig
  · intro k hk hevent
    rw [AList.lookup_insert_ne (hevent _ _ _)]
    exact hconfig k hk hevent

end ValidEvent

/-- Both events have a row of their own origin. -/
def BothStored {ws : ℕ} (a b : ValidEvent env ws s) (t : Db) : Prop := a.Own t ∧ b.Own t

/-- The event finds its own row stored, or no row under its key and the other
event's key another. -/
def Separate {ws : ℕ} (e other : ValidEvent env ws s) : Prop :=
  e.Own s ∨ (¬ e.Taken s ∧ other.key ≠ e.key)

theorem bothStored_in_order {ws n : ℕ} {a b : ValidEvent env ws s} (horigin : a.origin ≠ b.origin) :
    BothStored a b ([a.arrival, b.arrival].foldl (arrive env) (s, n)).1 ↔
      Separate a b ∧ Separate b a := by
  have hconfig : SameConfig s (s, n).1 := fun _ _ _ => rfl
  have hconfig' := a.config_arrive hconfig
  simp only [BothStored, List.foldl_cons, List.foldl_nil]
  rw [a.own_arrive_other horigin.symm hconfig', a.own_arrive hconfig, b.own_arrive hconfig',
    b.own_arrive_other horigin hconfig, b.taken_arrive a hconfig]
  unfold Separate
  by_cases hkey : a.key = b.key
  · have hsame : b.Taken s ↔ a.Taken s := by
      simp only [ValidEvent.Taken, hkey]
    constructor
    · rintro ⟨ha, hb⟩
      have hown : b.Own s := by simpa [hkey] using hb
      have htaken := hsame.1 hown.taken
      exact ⟨.inl (ha.resolve_right (not_not.2 htaken)), .inl hown⟩
    · rintro ⟨ha, hb⟩
      exact ⟨.inl (by simpa [hkey] using ha), .inl (by simpa [hkey] using hb)⟩
  · have hkey' : b.key ≠ a.key := fun h => hkey h.symm
    simp [hkey, hkey']

/-- The vendor's meter event as the customer's system reports it. -/
def customerMeterEvent : Dict :=
  [(py "schema_version", .str (py "1.0")), (py "deployment_id", .str (py "d")),
    (py "event_type", .str (py "cost_meter")), (py "origin", .str (py "customer_system")),
    (py "payload", .obj [(py "meter", .str (py "tokens_in")), (py "quantity", .num (.int 5)),
      (py "timestamp", .str (py "2026-01-02T04:04:05.678901+01:00"))])]

set_option maxRecDepth 10000 in
def vendorMeter : ValidEvent sampleEnv 1 sampleRows.1 where
  intake := sampleIntake
  sub := ⟨.obj meterEvent, sampleNow⟩
  adm := ⟨meterEvent, py "2026-01-02T03:04:05.678Z"⟩
  dep := ⟨1, 1, .active⟩
  key := sampleDigest meterRaw
  eventType := .costMeter
  origin := .vendorProduct
  workspace := sampleIntake_workspace
  production := sampleIntake_mode
  keyed := ⟨⟨by rfl, by rfl, by rfl, by rfl, by decide⟩, by rfl, by rfl⟩
  typed := by rfl
  originated := by rfl
  storable := by rfl

set_option maxRecDepth 10000 in
def customerMeter : ValidEvent sampleEnv 1 sampleRows.1 where
  intake := sampleIntake
  sub := ⟨.obj customerMeterEvent, sampleNow⟩
  adm := ⟨customerMeterEvent, py "2026-01-02T03:04:05.678Z"⟩
  dep := ⟨1, 1, .active⟩
  key := sampleDigest meterRaw
  eventType := .costMeter
  origin := .customerSystem
  workspace := sampleIntake_workspace
  production := sampleIntake_mode
  keyed := ⟨⟨by rfl, by rfl, by rfl, by rfl, by decide⟩, by rfl, by rfl⟩
  typed := by rfl
  originated := by rfl
  storable := by rfl

/-- Both in one request, the vendor's first. -/
def meterBatches : List Batch := [(sampleIntake, [vendorMeter.sub, customerMeter.sub])]

/-- An event of the vendor's, or a row that is no event. -/
def fromVendor : (Σ k : RowKey, Row k) → Bool
  | ⟨.event _ _ _, row⟩ => (row : EventRow).originType = .vendorProduct
  | _ => true

end TrueFigure.Server
