import TrueFigure.Server.EventKey
import TrueFigure.Server.Schema

/-!
# Dedup identity

What a key is meant to identify: the event type, the scope and the dedup tuple
of the family, with instants to the millisecond. The joined text determines the
pieces between bars, not the fields, so keys tell identities apart only where
the fields carry their bars in the same places.
-/
namespace TrueFigure.Server

open TrueFigure.Library TrueFigure.Python

/-- The dedup tuple of each family. -/
inductive DedupTuple
  | activity (deploymentId userRef workItemId : PyStr) (instant : ℕ) (actionType : PyStr)
  | costMeter (deploymentId meter : PyStr) (instant : ℕ) (meterRef : PyStr)
  | lifecycle (workItemId event : PyStr) (instant : ℕ) (statusTo : PyStr)
  | qualitySignal (workItemId signal : PyStr) (instant : ℕ)
  | revenueSignal (workItemId revenueRef : PyStr) (instant : ℕ)
  deriving DecidableEq

/-- A dedup tuple under its event type, and the scope; absent and empty scopes
are one. -/
structure DedupIdentity where
  tuple : DedupTuple
  scope : PyStr
  deriving DecidableEq

def DedupTuple.instant : DedupTuple → ℕ
  | .activity _ _ _ t _ => t
  | .costMeter _ _ t _ => t
  | .lifecycle _ _ t _ => t
  | .qualitySignal _ _ t => t
  | .revenueSignal _ _ t => t

/-- The event type and the dedup parts, as text. -/
def DedupTuple.fields : DedupTuple → List PyStr
  | .activity dep user item t action =>
    [py "activity", dep, user, item, renderMillis t, action]
  | .costMeter dep meter t ref => [py "cost_meter", dep, meter, renderMillis t, ref]
  | .lifecycle item event t status => [py "lifecycle", item, event, renderMillis t, status]
  | .qualitySignal item signal t => [py "quality_signal", item, signal, renderMillis t]
  | .revenueSignal item ref t => [py "revenue_signal", item, ref, renderMillis t]

/-- The fields joined into the pre-image of a key. -/
def DedupIdentity.fields (id : DedupIdentity) : List PyStr :=
  id.tuple.fields ++ if id.scope = [] then [] else [id.scope]

namespace KeyArgs

variable (rt : Runtime) (args : KeyArgs)

/-- The instant of the payload's timestamp, in milliseconds. -/
def instant : Option ℕ :=
  (canonicalMillis rt (args.payload.getD (py "timestamp") .null)).toOption

/-- A required string of the payload. -/
def text (key : PyStr) : Option PyStr := (args.payload.get? key).bind Json.str?

/-- An optional string of the payload; absent is empty. -/
def optional (key : PyStr) : Option PyStr := (args.payload.getD key (.str [])).str?

def identity : Option DedupIdentity := do
  let t ← args.instant rt
  let scope := args.scope.str?.getD []
  if args.eventType = py "activity" then
    some ⟨.activity args.deploymentId (← args.text (py "user_ref"))
      (← args.text (py "work_item_id")) t (← args.text (py "action_type")), scope⟩
  else if args.eventType = py "cost_meter" then
    some ⟨.costMeter args.deploymentId (← args.text (py "meter")) t
      (← args.optional (py "meter_ref")), scope⟩
  else if args.eventType = py "lifecycle" then
    some ⟨.lifecycle (← args.text (py "work_item_id")) (← args.text (py "event")) t
      (← args.optional (py "status_to")), scope⟩
  else if args.eventType = py "quality_signal" then
    some ⟨.qualitySignal (← args.text (py "work_item_id")) (← args.text (py "signal")) t, scope⟩
  else if args.eventType = py "revenue_signal" then
    some ⟨.revenueSignal (← args.text (py "work_item_id")) (← args.text (py "revenue_ref")) t,
      scope⟩
  else none

/-- The identity, as text. -/
def fields : List PyStr := ((args.identity rt).map DedupIdentity.fields).getD []

end KeyArgs

/-- Fields that agree between bars carry their bars in the same places. -/
def BarsAgree (xs ys : List PyStr) : Prop :=
  pieces bar xs = pieces bar ys → profile bar xs = profile bar ys

instance (xs ys : List PyStr) : Decidable (BarsAgree xs ys) :=
  inferInstanceAs (Decidable (_ → _))

theorem fields_injective {a b : DedupIdentity} (ha : a.tuple.instant < millisEnd)
    (hb : b.tuple.instant < millisEnd) (h : a.fields = b.fields) : a = b := by
  obtain ⟨ta, sa⟩ := a
  obtain ⟨tb, sb⟩ := b
  have hscope : ∀ {x y : PyStr},
      (if x = [] then ([] : List PyStr) else [x]) = (if y = [] then [] else [y]) → x = y := by
    intro x y hxy
    split_ifs at hxy with hx hy
    · rw [hx, hy]
    · simpa using hxy
  cases ta <;> cases tb <;> dsimp only [DedupTuple.instant] at ha hb
  case activity.activity =>
    simp only [DedupIdentity.fields, DedupTuple.fields, List.cons_append, List.nil_append,
      List.cons.injEq, true_and] at h
    obtain ⟨h1, h2, h3, h4, h5, h6⟩ := h
    rw [h1, h2, h3, renderMillis_inj ha hb h4, h5, hscope h6]
  case costMeter.costMeter =>
    simp only [DedupIdentity.fields, DedupTuple.fields, List.cons_append, List.nil_append,
      List.cons.injEq, true_and] at h
    obtain ⟨h1, h2, h3, h4, h5⟩ := h
    rw [h1, h2, renderMillis_inj ha hb h3, h4, hscope h5]
  case lifecycle.lifecycle =>
    simp only [DedupIdentity.fields, DedupTuple.fields, List.cons_append, List.nil_append,
      List.cons.injEq, true_and] at h
    obtain ⟨h1, h2, h3, h4, h5⟩ := h
    rw [h1, h2, renderMillis_inj ha hb h3, h4, hscope h5]
  case qualitySignal.qualitySignal =>
    simp only [DedupIdentity.fields, DedupTuple.fields, List.cons_append, List.nil_append,
      List.cons.injEq, true_and] at h
    obtain ⟨h1, h2, h3, h4⟩ := h
    rw [h1, h2, renderMillis_inj ha hb h3, hscope h4]
  case revenueSignal.revenueSignal =>
    simp only [DedupIdentity.fields, DedupTuple.fields, List.cons_append, List.nil_append,
      List.cons.injEq, true_and] at h
    obtain ⟨h1, h2, h3, h4⟩ := h
    rw [h1, h2, renderMillis_inj ha hb h3, hscope h4]
  -- distinct families differ in their first field
  all_goals
    simp only [DedupIdentity.fields, DedupTuple.fields, List.cons_append, List.cons.injEq] at h
    exact absurd h.1 (by decide)

namespace KeyArgs

variable {rt : Runtime} {args : KeyArgs}

theorem text_eq {key : PyStr} {s : PyStr} (h : args.payload.get? key = some (.str s)) :
    args.text key = some s := by
  simp [text, h, Json.str?]

theorem optional_eq {key : PyStr} {s : PyStr}
    (h : args.payload.getD key (.str []) = .str s) : args.optional key = some s := by
  simp [optional, h, Json.str?]

theorem joinable_scope {scope : Json} {parts : List Json} {fields : List PyStr}
    (h : joinable (parts ++ if scope.truthy then [scope] else []) = .ok fields) :
    ∃ texts, parts = texts.map .str ∧
      fields = texts ++ if scope.str?.getD [] = [] then [] else [scope.str?.getD []] := by
  obtain ⟨texts, rest, hfields, hparts, hscope⟩ := List.append_eq_map_iff.1 (joinable_eq_ok h)
  refine ⟨texts, hparts.symm, ?_⟩
  rw [hfields]
  congr 1
  split_ifs at hscope with htruthy
  · obtain ⟨s, hrest, hs⟩ := List.map_eq_singleton_iff.1 hscope
    rw [← hs] at htruthy ⊢
    have hne : s ≠ [] := by simpa [Json.truthy] using htruthy
    simp [hrest, Json.str?, hne]
  · have hnil : rest = [] := by simpa using hscope
    cases hcase : scope with
    | str s =>
      have hs : s = [] := by simpa [hcase, Json.truthy] using htruthy
      simp [hnil, hs, Json.str?]
    | _ => simp [hnil, Json.str?]

theorem cons_eq_map_str {x : Json} {xs : List Json} {texts : List PyStr}
    (h : x :: xs = texts.map .str) :
    ∃ s rest, x = .str s ∧ texts = s :: rest ∧ xs = rest.map .str := by
  obtain ⟨s, rest, htexts, hx, hxs⟩ := List.map_eq_cons_iff.1 h.symm
  exact ⟨s, rest, hx.symm, htexts, hxs.symm⟩

theorem nil_eq_map_str {texts : List PyStr} (h : [] = texts.map Json.str) : texts = [] :=
  List.map_eq_nil_iff.1 h.symm

theorem keyFields_identity {fields : List PyStr}
    (h : keyFields rt args.deploymentId args.eventType args.payload args.scope = .ok fields) :
    ∃ id, args.identity rt = some id ∧ fields = id.fields ∧ id.tuple.instant < millisEnd ∧
      args.instant rt = some id.tuple.instant := by
  obtain ⟨timestamp, htimestamp, hrest⟩ := bind_eq_ok h
  obtain ⟨ts, hts, hrest'⟩ := bind_eq_ok hrest
  obtain ⟨parts, hparts, hjoin⟩ := bind_eq_ok hrest'
  clear h hrest hrest'
  obtain ⟨millis, hmillis, hrender⟩ := canonicalTs_eq_ok hts
  obtain ⟨texts, htexts, rfl⟩ := joinable_scope hjoin
  clear hjoin
  have hlt := canonicalMillis_lt hmillis
  have hinstant : args.instant rt = some millis := by
    simp [instant, Dict.getD, subscript_eq_ok htimestamp, hmillis, Except.toOption]
  obtain ⟨_, texts₁, hs, rfl, h₀⟩ := cons_eq_map_str htexts
  obtain rfl := Json.str.inj hs
  unfold keyParts at hparts
  unfold identity
  rw [hinstant]
  split_ifs at hparts with hactivity hcost hlifecycle hquality hrevenue
  · obtain ⟨userRef, huser, hparts⟩ := bind_eq_ok hparts
    obtain ⟨item, hitem, hparts⟩ := bind_eq_ok hparts
    obtain ⟨action, haction, hparts⟩ := bind_eq_ok hparts
    cases hparts
    obtain ⟨_, _, hs, rfl, h₁⟩ := cons_eq_map_str h₀
    obtain rfl := Json.str.inj hs
    obtain ⟨user, _, rfl, rfl, h₂⟩ := cons_eq_map_str h₁
    obtain ⟨item, _, rfl, rfl, h₃⟩ := cons_eq_map_str h₂
    obtain ⟨_, _, hs, rfl, h₄⟩ := cons_eq_map_str h₃
    obtain rfl := Json.str.inj hs
    obtain ⟨action, _, rfl, rfl, h₅⟩ := cons_eq_map_str h₄
    rw [nil_eq_map_str h₅]
    refine ⟨⟨.activity args.deploymentId user item millis action, args.scope.str?.getD []⟩,
      ?_, ?_, hlt, rfl⟩
    · simp only [if_pos hactivity, text_eq (subscript_eq_ok huser),
        text_eq (subscript_eq_ok hitem), text_eq (subscript_eq_ok haction), Option.bind_eq_bind,
        Option.bind_some]
    · simp [DedupIdentity.fields, DedupTuple.fields, hactivity, hrender]
  · obtain ⟨meter, hmeter, hparts⟩ := bind_eq_ok hparts
    cases hparts
    obtain ⟨_, _, hs, rfl, h₁⟩ := cons_eq_map_str h₀
    obtain rfl := Json.str.inj hs
    obtain ⟨meter, _, rfl, rfl, h₂⟩ := cons_eq_map_str h₁
    obtain ⟨_, _, hs, rfl, h₃⟩ := cons_eq_map_str h₂
    obtain rfl := Json.str.inj hs
    obtain ⟨ref, _, href, rfl, h₄⟩ := cons_eq_map_str h₃
    rw [nil_eq_map_str h₄]
    refine ⟨⟨.costMeter args.deploymentId meter millis ref, args.scope.str?.getD []⟩,
      ?_, ?_, hlt, rfl⟩
    · simp only [if_neg hactivity, if_pos hcost, text_eq (subscript_eq_ok hmeter),
        optional_eq href, Option.bind_eq_bind, Option.bind_some]
    · simp [DedupIdentity.fields, DedupTuple.fields, hcost, hrender]
  · obtain ⟨item, hitem, hparts⟩ := bind_eq_ok hparts
    obtain ⟨event, hevent, hparts⟩ := bind_eq_ok hparts
    cases hparts
    obtain ⟨item, _, rfl, rfl, h₁⟩ := cons_eq_map_str h₀
    obtain ⟨event, _, rfl, rfl, h₂⟩ := cons_eq_map_str h₁
    obtain ⟨_, _, hs, rfl, h₃⟩ := cons_eq_map_str h₂
    obtain rfl := Json.str.inj hs
    obtain ⟨status, _, hstatus, rfl, h₄⟩ := cons_eq_map_str h₃
    rw [nil_eq_map_str h₄]
    refine ⟨⟨.lifecycle item event millis status, args.scope.str?.getD []⟩, ?_, ?_, hlt, rfl⟩
    · simp only [if_neg hactivity, if_neg hcost, if_pos hlifecycle,
        text_eq (subscript_eq_ok hitem), text_eq (subscript_eq_ok hevent), optional_eq hstatus,
        Option.bind_eq_bind, Option.bind_some]
    · simp [DedupIdentity.fields, DedupTuple.fields, hlifecycle, hrender]
  · obtain ⟨item, hitem, hparts⟩ := bind_eq_ok hparts
    obtain ⟨signal, hsignal, hparts⟩ := bind_eq_ok hparts
    cases hparts
    obtain ⟨item, _, rfl, rfl, h₁⟩ := cons_eq_map_str h₀
    obtain ⟨signal, _, rfl, rfl, h₂⟩ := cons_eq_map_str h₁
    obtain ⟨_, _, hs, rfl, h₃⟩ := cons_eq_map_str h₂
    obtain rfl := Json.str.inj hs
    rw [nil_eq_map_str h₃]
    refine ⟨⟨.qualitySignal item signal millis, args.scope.str?.getD []⟩, ?_, ?_, hlt, rfl⟩
    · simp only [if_neg hactivity, if_neg hcost, if_neg hlifecycle, if_pos hquality,
        text_eq (subscript_eq_ok hitem), text_eq (subscript_eq_ok hsignal), Option.bind_eq_bind,
        Option.bind_some]
    · simp [DedupIdentity.fields, DedupTuple.fields, hquality, hrender]
  · obtain ⟨item, hitem, hparts⟩ := bind_eq_ok hparts
    obtain ⟨ref, href, hparts⟩ := bind_eq_ok hparts
    cases hparts
    obtain ⟨item, _, rfl, rfl, h₁⟩ := cons_eq_map_str h₀
    obtain ⟨ref, _, rfl, rfl, h₂⟩ := cons_eq_map_str h₁
    obtain ⟨_, _, hs, rfl, h₃⟩ := cons_eq_map_str h₂
    obtain rfl := Json.str.inj hs
    rw [nil_eq_map_str h₃]
    refine ⟨⟨.revenueSignal item ref millis, args.scope.str?.getD []⟩, ?_, ?_, hlt, rfl⟩
    · simp only [if_neg hactivity, if_neg hcost, if_neg hlifecycle, if_neg hquality,
        if_pos hrevenue, text_eq (subscript_eq_ok hitem), text_eq (subscript_eq_ok href),
        Option.bind_eq_bind, Option.bind_some]
    · simp [DedupIdentity.fields, DedupTuple.fields, hrevenue, hrender]

/-- A computed key digests the joined fields of the identity. -/
theorem key_eq_ok {digest : PyStr → PyStr} {key : PyStr} (h : args.key rt digest = .ok key) :
    ∃ id, args.identity rt = some id ∧ args.fields rt = id.fields ∧
      id.tuple.instant < millisEnd ∧ args.instant rt = some id.tuple.instant ∧
      key = digest (joined bar id.fields) := by
  obtain ⟨fields, hfields, hdigest⟩ := bind_eq_ok h
  obtain ⟨id, hid, rfl, hlt, hinstant⟩ := keyFields_identity hfields
  dsimp only at hdigest
  split_ifs at hdigest
  have hkey := Except.ok.inj hdigest
  refine ⟨id, hid, ?_, hlt, hinstant, hkey.symm⟩
  simp [KeyArgs.fields, hid]

end KeyArgs

theorem DedupIdentity.fields_ne_nil (id : DedupIdentity) : id.fields ≠ [] := by
  obtain ⟨tuple, scope⟩ := id
  cases tuple <;> simp [DedupIdentity.fields, DedupTuple.fields]

/-- Fields without bars agree between bars only when they agree. -/
theorem BarsAgree.of_barFree {xs ys : List PyStr} (hx : ∀ f ∈ xs, bar ∉ f)
    (hy : ∀ f ∈ ys, bar ∉ f) : BarsAgree xs ys := by
  intro h
  rw [pieces_of_not_mem hx, pieces_of_not_mem hy] at h
  rw [h]

/-- Computed keys agree exactly when the fields agree between bars. -/
theorem eventKey_eq_iff_pieces {rt : Runtime} {digest : PyStr → PyStr} {a b : KeyArgs}
    {keyA keyB : PyStr} {preimages : Set PyStr} (hdigest : Set.InjOn digest preimages)
    (ha : a.key rt digest = .ok keyA) (hb : b.key rt digest = .ok keyB)
    (hpa : joined bar (a.fields rt) ∈ preimages) (hpb : joined bar (b.fields rt) ∈ preimages) :
    keyA = keyB ↔ pieces bar (a.fields rt) = pieces bar (b.fields rt) := by
  obtain ⟨idA, -, hfieldsA, -, -, rfl⟩ := KeyArgs.key_eq_ok ha
  obtain ⟨idB, -, hfieldsB, -, -, rfl⟩ := KeyArgs.key_eq_ok hb
  rw [hfieldsA] at hpa ⊢
  rw [hfieldsB] at hpb ⊢
  rw [← joined_eq_iff bar idA.fields_ne_nil idB.fields_ne_nil]
  exact hdigest.eq_iff hpa hpb

/-- Two computed keys tell the identities apart, and the instants with them,
exactly when the two events carry their bars alike. -/
theorem eventKey_eq_iff_identity {rt : Runtime} {digest : PyStr → PyStr} {a b : KeyArgs}
    {keyA keyB : PyStr} {preimages : Set PyStr} (hdigest : Set.InjOn digest preimages)
    (ha : a.key rt digest = .ok keyA) (hb : b.key rt digest = .ok keyB)
    (hpa : joined bar (a.fields rt) ∈ preimages) (hpb : joined bar (b.fields rt) ∈ preimages) :
    ((keyA = keyB ↔ a.identity rt = b.identity rt) ∧
        (keyA = keyB → a.instant rt = b.instant rt)) ↔
      BarsAgree (a.fields rt) (b.fields rt) := by
  have hkeys := eventKey_eq_iff_pieces hdigest ha hb hpa hpb
  obtain ⟨idA, hidA, hfieldsA, hltA, hinstantA, -⟩ := KeyArgs.key_eq_ok ha
  obtain ⟨idB, hidB, hfieldsB, hltB, hinstantB, -⟩ := KeyArgs.key_eq_ok hb
  rw [hfieldsA, hfieldsB] at hkeys
  have hids : idA = idB ↔ idA.fields = idB.fields := by
    constructor
    · intro h
      rw [h]
    · exact fields_injective hltA hltB
  rw [eq_iff_pieces_profile bar] at hids
  rw [hidA, hidB, hinstantA, hinstantB, hfieldsA, hfieldsB, hkeys, Option.some.injEq, hids]
  unfold BarsAgree
  constructor
  · rintro ⟨hiff, -⟩ hpieces
    exact (hiff.1 hpieces).2
  · intro hbars
    refine ⟨⟨fun h => ⟨h, hbars h⟩, And.left⟩, fun h => ?_⟩
    rw [hids.2 ⟨h, hbars h⟩]

/-- A lifecycle event whose new status holds two bars. -/
def statusEvent : Dict :=
  [(py "schema_version", .str (py "1.0")), (py "deployment_id", .str (py "d")),
    (py "event_type", .str (py "lifecycle")), (py "origin", .str (py "customer_system")),
    (py "payload", .obj [(py "work_item_id", .str (py "w")), (py "event", .str (py "created")),
      (py "timestamp", .str (py "2026-01-02T03:04:05.678Z")),
      (py "status_to", .str (py "created|2026-01-03T03:04:05.678Z|done"))])]

/-- A lifecycle event a day later whose work item holds two bars. -/
def itemEvent : Dict :=
  [(py "schema_version", .str (py "1.0")), (py "deployment_id", .str (py "d")),
    (py "event_type", .str (py "lifecycle")), (py "origin", .str (py "customer_system")),
    (py "payload", .obj [(py "work_item_id", .str (py "w|created|2026-01-02T03:04:05.678Z")),
      (py "event", .str (py "created")), (py "timestamp", .str (py "2026-01-03T03:04:05.678Z")),
      (py "status_to", .str (py "done"))])]

def meterEvent : Dict :=
  [(py "schema_version", .str (py "1.0")), (py "deployment_id", .str (py "d")),
    (py "event_type", .str (py "cost_meter")), (py "origin", .str (py "vendor_product")),
    (py "payload", .obj [(py "meter", .str (py "tokens_in")), (py "quantity", .num (.int 3)),
      (py "timestamp", .str (py "2026-01-02T04:04:05.678901+01:00"))])]

def statusRaw : PyStr :=
  py "lifecycle|w|created|2026-01-02T03:04:05.678Z|created|2026-01-03T03:04:05.678Z|done"

def meterRaw : PyStr := py "cost_meter|d|tokens_in|2026-01-02T03:04:05.678Z|"

/-- Two valid envelopes of distinct identity and instant have one key. -/
theorem eventKey_collides :
    schemaErrors statusEvent = [] ∧ schemaErrors itemEvent = [] ∧
      ∀ (rt : Runtime) (digest : PyStr → PyStr),
        (∃ key, (KeyArgs.ofEnvelope statusEvent).key rt digest = .ok key ∧
          (KeyArgs.ofEnvelope itemEvent).key rt digest = .ok key) ∧
        (KeyArgs.ofEnvelope statusEvent).identity rt ≠ (KeyArgs.ofEnvelope itemEvent).identity rt ∧
        (KeyArgs.ofEnvelope statusEvent).instant rt ≠ (KeyArgs.ofEnvelope itemEvent).instant rt := by
  refine ⟨List.isEmpty_iff.1 (by decide), List.isEmpty_iff.1 (by decide), fun rt digest => ?_⟩
  refine ⟨⟨digest statusRaw, rfl, rfl⟩, ?_, ?_⟩
  · intro h
    exact absurd (Option.some.inj h) (by decide)
  · intro h
    exact absurd (Option.some.inj h) (by decide)

/-- The digests of the two texts, and no other's. -/
def sampleDigest (raw : PyStr) : PyStr :=
  if raw = statusRaw then py "a9afd9b442c4cd1d5daa7368acd53362"
  else if raw = meterRaw then py "f57800390688858f31467877afce3fab"
  else []

theorem sampleDigest_injOn : Set.InjOn sampleDigest {statusRaw, meterRaw} := by
  rintro x (rfl | rfl) y (rfl | rfl) h
  · rfl
  · exact absurd h (by decide)
  · exact absurd h (by decide)
  · rfl

theorem eventKey_eq_iff_identity_sample :
    ((sampleDigest statusRaw = sampleDigest meterRaw ↔
          (KeyArgs.ofEnvelope statusEvent).identity asciiRuntime =
            (KeyArgs.ofEnvelope meterEvent).identity asciiRuntime) ∧
        (sampleDigest statusRaw = sampleDigest meterRaw →
          (KeyArgs.ofEnvelope statusEvent).instant asciiRuntime =
            (KeyArgs.ofEnvelope meterEvent).instant asciiRuntime)) ↔
      BarsAgree ((KeyArgs.ofEnvelope statusEvent).fields asciiRuntime)
        ((KeyArgs.ofEnvelope meterEvent).fields asciiRuntime) :=
  eventKey_eq_iff_identity sampleDigest_injOn rfl rfl (.inl rfl) (.inr rfl)

end TrueFigure.Server
