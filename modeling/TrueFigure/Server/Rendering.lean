import TrueFigure.Server.Hazards

/-!
# Results that render

The result of a stored, duplicate or echoed event always renders: its key is hex,
and its echo repeats fields that are enumerated or part of the key. A rejected
event's result renders unless its error or its echo repeats what cannot.
-/
namespace TrueFigure.Server

open TrueFigure.Library TrueFigure.Python

variable {env : Env} {intake : Intake} {s : Db} {sub : Submission} {adm : Admitted}
  {dep : DeploymentRow} {key : PyStr} {err : TFError} {x : Settled}

theorem WellShaped.schemaErrors_nil {event : Dict} (h : WellShaped env event) :
    schemaErrors event = [] := by
  have hvalid := h.valid
  unfold validateStructure at hvalid
  extract_lets sv at hvalid
  split at hvalid
  · cases hvalid
  · split at hvalid
    · cases hvalid
    · rename_i hnone
      exact firstError_eq_none hnone

theorem Deployed.valid (h : Deployed env intake s sub adm dep) : schemaErrors adm.event = [] :=
  (examine_ok h.examined).2.1.schemaErrors_nil

/-- The key of an admitted event digests fields that can be encoded. -/
theorem admitted_key_ok (h : adm.key env = .ok key) :
    ∃ parts ts fields, keyParts (adm.text (py "deployment_id")) (adm.text (py "event_type"))
        adm.payload ts = .ok parts ∧ (∀ part ∈ parts, ∃ f, part = .str f ∧ f ∈ fields) ∧
      (∀ f ∈ fields, utf8Encodable f = true) ∧ key = env.digest (joined bar fields) := by
  obtain ⟨fields, hfields, hdigest⟩ := bind_eq_ok h
  obtain ⟨timestamp, -, hrest⟩ := bind_eq_ok hfields
  obtain ⟨ts, -, hrest'⟩ := bind_eq_ok hrest
  obtain ⟨parts, hparts, hjoin⟩ := bind_eq_ok hrest'
  dsimp only at hdigest
  split_ifs at hdigest with hencodable
  refine ⟨parts, ts, fields, hparts, ?_, utf8Encodable_of_joined hencodable,
    (Except.ok.inj hdigest).symm⟩
  intro part hpart
  have hmem : part ∈ fields.map Json.str := by
    rw [← joinable_eq_ok hjoin]
    simp [hpart]
  obtain ⟨f, hf, rfl⟩ := List.mem_map.1 hmem
  exact ⟨f, rfl, hf⟩

theorem key_encodable (h : adm.key env = .ok key) : utf8Encodable key = true := by
  obtain ⟨_, _, _, -, -, -, rfl⟩ := admitted_key_ok h
  exact env.digest_encodable _

theorem keyParts_workItem {deploymentId eventType ts : PyStr} {payload : Dict} {parts : List Json}
    (h : keyParts deploymentId eventType payload ts = .ok parts) :
    (∃ w ∈ parts, payload.get? (py "work_item_id") = some w) ∨
      ∃ m, payload.get? (py "meter") = some m := by
  unfold keyParts at h
  split_ifs at h
  · obtain ⟨_, -, h⟩ := bind_eq_ok h
    obtain ⟨w, hw, h⟩ := bind_eq_ok h
    obtain ⟨_, -, h⟩ := bind_eq_ok h
    cases h
    exact .inl ⟨w, by simp, subscript_eq_ok hw⟩
  · obtain ⟨m, hm, h⟩ := bind_eq_ok h
    exact .inr ⟨m, subscript_eq_ok hm⟩
  · obtain ⟨w, hw, h⟩ := bind_eq_ok h
    obtain ⟨_, -, h⟩ := bind_eq_ok h
    cases h
    exact .inl ⟨w, by simp, subscript_eq_ok hw⟩
  · obtain ⟨w, hw, h⟩ := bind_eq_ok h
    obtain ⟨_, -, h⟩ := bind_eq_ok h
    cases h
    exact .inl ⟨w, by simp, subscript_eq_ok hw⟩
  · obtain ⟨w, hw, h⟩ := bind_eq_ok h
    obtain ⟨_, -, h⟩ := bind_eq_ok h
    cases h
    exact .inl ⟨w, by simp, subscript_eq_ok hw⟩

/-- A field the echo repeats: absent, or a text that can be encoded. -/
def Plain (value : Json) : Prop := value = .null ∨ ∃ s, value = .str s ∧ utf8Encodable s = true

theorem Plain.renders {value : Json} (h : Plain value) :
    Json.all PyNum.finite (fun _ => true) value = true ∧
      Json.all (fun _ => true) utf8Encodable value = true := by
  rcases h with rfl | ⟨s, rfl, hs⟩
  · exact ⟨rfl, rfl⟩
  · exact ⟨rfl, hs⟩

theorem Plain.or {a b : Json} (ha : Plain a) (hb : Plain b) : Plain (pyOr a b) := by
  unfold pyOr
  split_ifs
  · exact ha
  · exact hb

theorem Echo.renders_of_plain {e : Echo} (h : ∀ v ∈ e.values, Plain v) : e.renders = true := by
  simp only [Echo.renders, Echo.compliant, Echo.encodable, Bool.and_eq_true, List.all_eq_true]
  exact ⟨fun v hv => (h v hv).renders.1, fun v hv => (h v hv).renders.2⟩

/-- Where every family that knows a field enumerates it, a valid payload has it
plain. -/
theorem plain_of_closed {payload : Dict} {f : Family} (name : PyStr) (hf : f ∈ families)
    (haccepts : f.accepts (.obj payload) = true)
    (hclosed : (families.all fun f => (f.properties.lookup name).all PropertySchema.closed) = true) :
    Plain (payload.getD name .null) := by
  unfold Dict.getD
  cases hget : payload.get? name with
  | none => exact .inl rfl
  | some value =>
    obtain ⟨p, hp, hvalue⟩ := Family.accepts_get haccepts hget
    have := List.all_eq_true.1 hclosed f hf
    rw [hp] at this
    exact .inr (PropertySchema.closed_accepts this hvalue)

/-- The work item of an event with a key is part of it, or the event has none. -/
theorem workItem_plain {f : Family} (hf : f ∈ families)
    (haccepts : f.accepts (.obj adm.payload) = true) (hkey : adm.key env = .ok key) :
    Plain (adm.payload.getD (py "work_item_id") .null) := by
  obtain ⟨parts, ts, fields, hparts, hstr, hencodable, -⟩ := admitted_key_ok hkey
  rcases keyParts_workItem hparts with ⟨w, hw, hget⟩ | ⟨m, hget⟩
  · obtain ⟨t, rfl, ht⟩ := hstr w hw
    exact .inr ⟨t, by simp [Dict.getD, hget], hencodable t ht⟩
  · -- only `cost_meter` knows `meter`, and it has no work item
    have hmeterOnly : (families.all fun f => (f.properties.lookup (py "meter")).isNone ||
        (f.properties.lookup (py "work_item_id")).isNone) = true := by decide
    obtain ⟨p, hp, -⟩ := Family.accepts_get haccepts hget
    have hone := List.all_eq_true.1 hmeterOnly f hf
    cases hitem : adm.payload.get? (py "work_item_id") with
    | none => exact .inl (by simp [Dict.getD, hitem])
    | some w =>
      obtain ⟨q, hq, -⟩ := Family.accepts_get haccepts hitem
      simp [hp, hq] at hone

theorem Keyed.echo_renders (h : Keyed env intake s sub adm dep key) (eventType : Json)
    (accepted : Bool) (reason : Option PyStr) :
    (echoOf eventType adm.payload accepted reason).renders = true := by
  obtain ⟨payload, hpayload, f, hf, haccepts⟩ := valid_payload h.toDeployed.valid
  have hadm : payload = adm.payload := by
    simp [Admitted.payload, Dict.getD, hpayload, Json.dictOrEmpty]
  rw [hadm] at haccepts
  have haction := plain_of_closed (py "action_type") hf haccepts (by decide)
  have hmeter := plain_of_closed (py "meter") hf haccepts (by decide)
  have hevent := plain_of_closed (py "event") hf haccepts (by decide)
  have hsignal := plain_of_closed (py "signal") hf haccepts (by decide)
  apply Echo.renders_of_plain
  intro v hv
  simp only [Echo.values, echoOf, List.mem_cons] at hv
  rcases hv with rfl | hv
  · exact workItem_plain hf haccepts h.keyed
  · split_ifs at hv
    · simp only [Option.toList_some, Option.toList_none, List.append_nil,
        List.mem_singleton] at hv
      exact hv ▸ haction
    · simp only [Option.toList_some, Option.toList_none, List.nil_append,
        List.mem_singleton] at hv
      exact hv ▸ (hmeter.or hevent).or hsignal

theorem Keyed.store_renders (h : Keyed env intake s sub adm dep key)
    (hstore : store intake s adm dep key = .ok x) : x.verdict.renders = true := by
  have hkey := key_encodable h.keyed
  unfold store at hstore
  split_ifs at hstore
  · cases hstore
    have hecho := h.echo_renders (.str (adm.text (py "event_type"))) true none
    simp only [Echo.renders, Bool.and_eq_true] at hecho
    simp [Verdict.renders, Verdict.compliant, Verdict.encodable, Verdict.texts, echoedVerdict,
      acceptedVerdict, hkey, hecho]
  · cases hstore
    simp [Verdict.renders, Verdict.compliant, Verdict.encodable, Verdict.texts, duplicateVerdict,
      hkey]
  · cases hvalues : eventValues intake adm dep with
    | error e => simp [hvalues, liftDb, Except.map] at hstore
    | ok row =>
      simp only [hvalues, liftDb, Except.map, Except.ok.injEq] at hstore
      subst hstore
      simp [Verdict.renders, Verdict.compliant, Verdict.encodable, Verdict.texts, acceptedVerdict,
        hkey]

end TrueFigure.Server
