import TrueFigure.Library.Runs
import TrueFigure.Server.MethodRuns
import TrueFigure.Server.WebhookRuns

/-!
# Lifted refusals

After a call of `compute_deployment` has committed, `_fire_figure_webhooks` compares
the two newest versions of each figure it wrote: `refusal.lifted` is emitted where a
computed version directly follows a refused one. A version that awaits parameters in
between hides the refusal.
-/
namespace TrueFigure.Server

open TrueFigure.Library TrueFigure.Python

/-! ### `_fire_figure_webhooks` -/

/-- The statuses of `ORDER BY version DESC LIMIT 2`. -/
def Records.newestStatuses (s : Records) (deploymentId : ℕ) (figureRef : PyStr) :
    List FigureStatus :=
  ((((s.archive 0).figures.filter fun f =>
    f.deploymentId = deploymentId ∧ f.figureRef = figureRef).insertionSort
      fun f g => g.version ≤ f.version).take 2).map fun f => f.figureStatus

/-- The events of `_fire_figure_webhooks`, in order; `ref` is the reference of the
deployment. -/
def figureEvents (s : Records) (deploymentId : ℕ) (ref : Option PyStr) (period : PyStr) :
    List PyStr → List (WebhookEventType × Dict)
  | [] => []
  | fr :: refsWritten =>
    let payload : Dict := [(py "figure_id", .str fr),
      (py "deployment_id", (ref.map Json.str).getD .null), (py "period", .str period)]
    let lifted := if s.newestStatuses deploymentId fr = [.computed, .refused] then
      [(WebhookEventType.refusalLifted, payload)] else []
    (.figureUpdated, payload) :: lifted ++ figureEvents s deploymentId ref period refsWritten

/-- The emissions of these events; `clock` tells the time of each. -/
def emitEvents (env : HookEnv) (workspaceId : ℕ) (clock : ℕ → ℕ) :
    List (WebhookEventType × Dict) → HookTables → HookTables
  | [], t => t
  | e :: events, t =>
    emitEvents env workspaceId (fun n => clock (n + 1)) events
      (emit env workspaceId e.1 e.2 (clock 0) t).2

def fireFigureWebhooks (env : HookEnv) (workspaceId : ℕ) (clock : ℕ → ℕ) (s : Records)
    (deploymentId : ℕ) (ref : Option PyStr) (period : PyStr) (refsWritten : List PyStr) :
    HookTables → HookTables :=
  emitEvents env workspaceId clock (figureEvents s deploymentId ref period refsWritten)

def DeliveryRow.content (d : DeliveryRow) : ℕ × WebhookEventType × Dict :=
  (d.webhookId, d.webhookEventType, d.payload)

theorem content_enqueue (env : HookEnv) (e : WebhookEventType) (payload : Dict) (now : ℕ)
    (hooks : List ℕ) (t : HookTables) :
    (t.enqueue env e payload now hooks).deliveries.map DeliveryRow.content =
      t.deliveries.map DeliveryRow.content ++ hooks.map fun hook => (hook, e, payload) := by
  induction hooks generalizing t with
  | nil => simp [HookTables.enqueue]
  | cons hook hooks ih =>
    rw [HookTables.enqueue, ih, List.map_append, List.append_assoc]
    rfl

theorem content_emitEvents (env : HookEnv) (ws : ℕ) (clock : ℕ → ℕ)
    (events : List (WebhookEventType × Dict)) (t : HookTables) :
    (emitEvents env ws clock events t).deliveries.map DeliveryRow.content =
      t.deliveries.map DeliveryRow.content ++
        events.flatMap fun e => (t.subscribers ws e.1).map fun hook => (hook, e.1, e.2) := by
  induction events generalizing clock t with
  | nil => simp [emitEvents]
  | cons e events ih =>
    have hwebhooks : (emit env ws e.1 e.2 (clock 0) t).2.webhooks = t.webhooks :=
      (enqueue_webhooks env e.1 e.2 (clock 0) (t.subscribers ws e.1) t).1
    have hsubscribers : ∀ ev, (emit env ws e.1 e.2 (clock 0) t).2.subscribers ws ev =
        t.subscribers ws ev := fun ev => by rw [HookTables.subscribers, hwebhooks]; rfl
    rw [emitEvents, ih, List.flatMap_cons]
    simp only [hsubscribers]
    rw [emit, content_enqueue, List.append_assoc]

/-! ### The statuses of a figure -/

def Records.statusAt (s : Records) (deploymentId : ℕ) (figureRef : PyStr) (version : ℕ) :
    Option FigureStatus :=
  (s.lookup (.figure deploymentId figureRef version)).map fun row : Figure => row.figureStatus

/-- The latest earlier version that does not await parameters is refused. -/
def RefusedBefore (status : ℕ → Option FigureStatus) (v : ℕ) : Prop :=
  ∃ u < v, status u = some .refused ∧ ∀ w < v, u < w → status w = some .awaitingParameters

instance (status : ℕ → Option FigureStatus) (v : ℕ) : Decidable (RefusedBefore status v) :=
  inferInstanceAs (Decidable (∃ u < v, _))

/-- The version lifts a refusal. -/
def LiftsRefusal (status : ℕ → Option FigureStatus) (v : ℕ) : Prop :=
  status v = some .computed ∧ RefusedBefore status v

instance (status : ℕ → Option FigureStatus) (v : ℕ) : Decidable (LiftsRefusal status v) :=
  inferInstanceAs (Decidable (_ ∧ _))

/-- It does so after versions that await parameters. -/
def LiftsLate (status : ℕ → Option FigureStatus) (v : ℕ) : Prop :=
  LiftsRefusal status v ∧ status (v - 1) = some .awaitingParameters

/-- The versions `_fire_figure_webhooks` finds lifted. -/
def LiftsDirectly (status : ℕ → Option FigureStatus) (v : ℕ) : Prop :=
  status v = some .computed ∧ status (v - 1) = some .refused

instance (status : ℕ → Option FigureStatus) (v : ℕ) : Decidable (LiftsDirectly status v) :=
  inferInstanceAs (Decidable (_ ∧ _))

theorem liftsRefusal_iff {status : ℕ → Option FigureStatus} (hzero : status 0 = none) (v : ℕ) :
    LiftsRefusal status v ↔ LiftsDirectly status v ∨ LiftsLate status v := by
  constructor
  · intro h
    have ⟨hcomputed, u, hu, hrefused, hawaiting⟩ := h
    rcases Nat.lt_or_ge u (v - 1) with hlt | hge
    · exact .inr ⟨h, hawaiting (v - 1) (by omega) hlt⟩
    · have hprev : u = v - 1 := by omega
      exact .inl ⟨hcomputed, hprev ▸ hrefused⟩
  · rintro (⟨hcomputed, hrefused⟩ | h)
    · have hpos : v ≠ 0 := by
        rintro rfl
        cases hzero.symm.trans hcomputed
      exact ⟨hcomputed, v - 1, by omega, hrefused, fun w _ _ => by omega⟩
    · exact h.1

theorem not_liftsDirectly_of_late {status : ℕ → Option FigureStatus} {v : ℕ}
    (h : LiftsLate status v) : ¬ LiftsDirectly status v := by
  intro hdirectly
  cases h.2.symm.trans hdirectly.2

section Newest

variable {s : Records} {d : ℕ} {ref : PyStr}

theorem isSome_statusAt (s : Records) (d : ℕ) (ref : PyStr) (v : ℕ) :
    (s.statusAt d ref v).isSome = (s.lookup (.figure d ref v)).isSome := by
  rw [Records.statusAt, Option.isSome_map]

theorem statusAt_of_kept {s' : Records} (h : Kept s s') {v : ℕ}
    (hv : (s.lookup (.figure d ref v)).isSome) : s'.statusAt d ref v = s.statusAt d ref v := by
  obtain ⟨row, hrow⟩ := Option.isSome_iff_exists.1 hv
  rw [Records.statusAt, Records.statusAt, hrow, h _ row (by simp) hrow]

/-- The rows of a figure, as the query reads them. -/
theorem statusAt_of_mem (hkept : AllKept s) {f : FigureRow}
    (hf : f ∈ (s.archive 0).figures.filter fun f => f.deploymentId = d ∧ f.figureRef = ref) :
    s.statusAt d ref f.version = some f.figureStatus := by
  obtain ⟨hmem, hcolumns⟩ := List.mem_filter.1 hf
  obtain ⟨row, hrow, rfl⟩ := List.mem_map.1 hmem
  obtain ⟨⟨k, r⟩, hentry, hk⟩ := List.mem_filterMap.1 hrow
  cases k with
  | figure d' ref' v' =>
    cases hk
    have hlookup := AList.mem_lookup_iff.2 hentry
    obtain ⟨hd, href, hversion⟩ := hkept _ _ hlookup
    simp only [decide_eq_true_eq] at hcolumns
    rw [Records.statusAt, ← hcolumns.1, ← hcolumns.2, hd, href, hversion, hlookup]
    rfl
  | _ => cases hk

theorem nodup_figureVersions (hkept : AllKept s) (d : ℕ) (ref : PyStr) :
    (((s.archive 0).figures.filter fun f => f.deploymentId = d ∧ f.figureRef = ref).map
      fun f => f.version).Nodup := by
  have hkeys : s.entries.Pairwise fun e e' => e.1 ≠ e'.1 := List.pairwise_map.1 s.nodupKeys
  refine List.pairwise_map.2 (List.pairwise_filter.2 (List.pairwise_map.2
    (List.pairwise_filterMap.2 (hkeys.imp_of_mem ?_))))
  rintro ⟨k, r⟩ ⟨k', r'⟩ he he' hne row hrow row' hrow' hcolumns hcolumns' heq
  cases k with
  | figure d₁ ref₁ v₁ =>
    cases k' with
    | figure d₂ ref₂ v₂ =>
      cases hrow
      cases hrow'
      obtain ⟨hd, href, hv⟩ := hkept _ _ (AList.mem_lookup_iff.2 he)
      obtain ⟨hd', href', hv'⟩ := hkept _ _ (AList.mem_lookup_iff.2 he')
      simp only [decide_eq_true_eq] at hcolumns hcolumns'
      refine hne ?_
      rw [← hd, ← href, ← hv, ← hd', ← href', ← hv', hcolumns.1, hcolumns.2, hcolumns'.1,
        hcolumns'.2, heq]
    | _ => cases hrow'
  | _ => cases hrow

/-- The first `n` numbers, the greatest first. -/
theorem eq_reverse_range' {xs : List ℕ} {n : ℕ} (hsorted : xs.Pairwise fun a b => b ≤ a)
    (hnodup : xs.Nodup) (hmem : ∀ v, v ∈ xs ↔ 1 ≤ v ∧ v ≤ n) :
    xs = (List.range' 1 n).reverse := by
  refine List.Perm.eq_of_pairwise (fun a b _ _ hba hab => le_antisymm hab hba) hsorted ?_ ?_
  · refine List.pairwise_reverse.2 ((List.pairwise_lt_range' 1).imp ?_)
    exact fun h => le_of_lt h
  · refine (List.perm_ext_iff_of_nodup hnodup (List.nodup_reverse.2 (List.nodup_range'))).2 ?_
    intro v
    rw [hmem, List.mem_reverse, List.mem_range'_1]
    omega

theorem isSome_iff_lt_nextVersion (h : VersionHistory s) (v : ℕ) :
    (s.lookup (.figure d ref v)).isSome ↔ 1 ≤ v ∧ v < s.nextVersion d ref := by
  obtain ⟨n, hn⟩ := h.figures d ref
  have hle : s.nextVersion d ref ≤ n + 1 := by
    refine Nat.succ_le_succ ?_
    rcases foldr_max_mem (((s.archive 0).figures.filter fun f =>
      f.deploymentId = d ∧ f.figureRef = ref).map fun f => f.version) with hzero | hmem
    · omega
    · exact ((hn _).1 (figure_isSome h.kept hmem)).2
  constructor
  · intro hv
    obtain ⟨row, hrow⟩ := Option.isSome_iff_exists.1 hv
    exact ⟨((hn v).1 hv).1, lt_nextVersion h.kept hrow⟩
  · intro hv
    exact (hn v).2 ⟨hv.1, by omega⟩

/-- In an unbroken history the two newest versions are the last two. -/
theorem newestStatuses_iff (h : VersionHistory s) {v : ℕ}
    (hv : v + 1 = s.nextVersion d ref) :
    s.newestStatuses d ref = [.computed, .refused] ↔ LiftsDirectly (s.statusAt d ref) v := by
  have htotal : Std.Total fun f g : FigureRow => g.version ≤ f.version :=
    ⟨fun f g => Nat.le_total g.version f.version⟩
  have htrans : IsTrans FigureRow fun f g => g.version ≤ f.version :=
    ⟨fun _ _ _ hfg hgh => Nat.le_trans hgh hfg⟩
  have hnone : ∀ w, ¬ (1 ≤ w ∧ w ≤ v) → s.statusAt d ref w = none := by
    intro w hw
    rw [← Option.not_isSome_iff_eq_none, isSome_statusAt, isSome_iff_lt_nextVersion h]
    omega
  unfold Records.newestStatuses
  generalize hrows : ((s.archive 0).figures.filter fun f =>
    f.deploymentId = d ∧ f.figureRef = ref) = rows
  have hstatus : ∀ f ∈ rows, s.statusAt d ref f.version = some f.figureStatus :=
    fun f hf => statusAt_of_mem h.kept (hrows ▸ hf)
  have hperm := List.perm_insertionSort (fun f g : FigureRow => g.version ≤ f.version) rows
  have hsorted := List.pairwise_insertionSort (fun f g : FigureRow => g.version ≤ f.version) rows
  generalize rows.insertionSort (fun f g => g.version ≤ f.version) = sorted at hperm hsorted ⊢
  have hversions : sorted.map (fun f => f.version) = (List.range' 1 v).reverse := by
    refine eq_reverse_range' (List.pairwise_map.2 hsorted) ?_ fun w => ?_
    · rw [(hperm.map _).nodup_iff, ← hrows]
      exact nodup_figureVersions h.kept d ref
    · rw [(hperm.map _).mem_iff, ← hrows]
      constructor
      · intro hw
        have := (isSome_iff_lt_nextVersion h w).1 (figure_isSome h.kept hw)
        omega
      · intro hw
        obtain ⟨row, hrow⟩ := Option.isSome_iff_exists.1
          ((@isSome_iff_lt_nextVersion s d ref h w).2 (by omega))
        exact mem_figureVersions h.kept hrow
  unfold LiftsDirectly
  rcases v with _ | _ | m
  · have hnil : sorted = [] := List.map_eq_nil_iff.1 hversions
    rw [hnone 0 (by omega), hnil]
    simp
  · obtain ⟨f, rfl, -⟩ := List.map_eq_singleton_iff.1 hversions
    rw [hnone (0 + 1 - 1) (by omega)]
    simp
  · have hlast : (List.range' 1 (m + 2)).reverse =
        (m + 2) :: (m + 1) :: (List.range' 1 m).reverse := by
      rw [List.range'_1_concat, List.range'_1_concat, List.reverse_append, List.reverse_append,
        Nat.add_comm 1 m, Nat.add_comm 1 (m + 1)]
      rfl
    rw [hlast] at hversions
    obtain ⟨f, rest, rfl, hf, hrest⟩ := List.map_eq_cons_iff.1 hversions
    obtain ⟨g, rest, rfl, hg, -⟩ := List.map_eq_cons_iff.1 hrest
    have hnewest := hstatus f (hperm.mem_iff.1 List.mem_cons_self)
    have hbefore := hstatus g (hperm.mem_iff.1 (List.mem_cons_of_mem _ List.mem_cons_self))
    rw [hf] at hnewest
    rw [hg] at hbefore
    rw [hnewest, Nat.add_succ_sub_one, hbefore]
    simp

end Newest

/-! ### Runs of `compute_deployment` -/

inductive FigureLabel
  | other
  | computed (deploymentId : ℕ) (events : List (WebhookEventType × Dict))

/-- A call of `compute_deployment`, which emits its events once it has committed, or
a change of the rows the methods read. -/
inductive FigureStep : Records → FigureLabel → Records → Prop
  | evidence (s : Records) (e : Evidence) : FigureStep s .other (s.insert .evidence e)
  | commit {F : Type} {plan : Planner} {rt : DecimalText} {fl : Floats F} {ws dep n n' : ℕ}
      {period : PyStr} {s s' : Records} {refs : List PyStr} (ref : Option PyStr)
      (heval : (computeDeployment plan rt fl ws dep period).eval s n =
        (.ok (.written refs, s'), n')) :
      FigureStep s (.computed dep (figureEvents s' dep ref period refs)) s'
  | abort {F : Type} {plan : Planner} {rt : DecimalText} {fl : Floats F} {ws dep n n' : ℕ}
      {period : PyStr} {s : Records} {e : Failure}
      (heval : (computeDeployment plan rt fl ws dep period).eval s n = (.error e, n')) :
      FigureStep s .other s

def namesFigure (figureRef : PyStr) (payload : Dict) : Bool :=
  match payload.get? (py "figure_id") with
  | some (.str s) => s = figureRef
  | _ => false

/-- The `refusal.lifted` events of a figure. -/
def liftedEvents (figureRef : PyStr) (events : List (WebhookEventType × Dict)) : ℕ :=
  events.countP fun e => e.1 = .refusalLifted && namesFigure figureRef e.2

def FigureLabel.lifted (deploymentId : ℕ) (figureRef : PyStr) : FigureLabel → ℕ
  | .other => 0
  | .computed d events => if d = deploymentId then liftedEvents figureRef events else 0

/-- How often `refusal.lifted` has been emitted at a version of a figure: by calls
that found it to be the next one. -/
def liftedAt (deploymentId : ℕ) (figureRef : PyStr) (v : ℕ) (trace : List (Records × FigureLabel)) :
    ℕ :=
  (trace.map fun x => if x.1.nextVersion deploymentId figureRef = v then
    x.2.lifted deploymentId figureRef else 0).sum

section LiftedRuns

variable {s s' t : Records} {d dep v : ℕ} {ref : PyStr} {l : FigureLabel}
  {trace : List (Records × FigureLabel)}

theorem liftedEvents_figureEvents {depRef : Option PyStr} {period : PyStr} {refs : List PyStr}
    (hdistinct : refs.Nodup) :
    liftedEvents ref (figureEvents s dep depRef period refs) =
      if ref ∈ refs ∧ s.newestStatuses dep ref = [.computed, .refused] then 1 else 0 := by
  induction refs with
  | nil => simp [figureEvents, liftedEvents]
  | cons fr refs ih =>
    obtain ⟨hout, hdistinct⟩ := List.nodup_cons.1 hdistinct
    have hrest := ih hdistinct
    unfold liftedEvents at hrest ⊢
    rw [figureEvents, List.cons_append, List.countP_cons_of_neg (by simp), List.countP_append,
      hrest]
    by_cases hfr : fr = ref
    · subst hfr
      by_cases hlifted : s.newestStatuses dep fr = [.computed, .refused]
      · simp [hlifted, hout, namesFigure, Dict.get?]
      · simp [hlifted, hout]
    · have hne : ref ≠ fr := fun h => hfr h.symm
      by_cases hlifted : s.newestStatuses dep fr = [.computed, .refused]
      · simp [hlifted, hfr, hne, namesFigure, Dict.get?]
      · simp [hlifted, hne]

/-- A call continues the histories of the figures it writes by one version. -/
theorem Wrote.nextVersion {refs : List PyStr} (h : VersionHistory s) (hwrote : Wrote dep refs s s')
    (href : ref ∈ refs) : s'.nextVersion dep ref = s.nextVersion dep ref + 1 := by
  have hversions : ∀ w, (1 ≤ w ∧ w < s'.nextVersion dep ref) ↔
      (1 ≤ w ∧ w < s.nextVersion dep ref) ∨ w = s.nextVersion dep ref := by
    intro w
    rw [← isSome_iff_lt_nextVersion hwrote.history, ← isSome_iff_lt_nextVersion h, hwrote.figures]
    simp [href]
  have hpos : 1 ≤ s.nextVersion dep ref := Nat.succ_pos _
  have hnew := (hversions (s.nextVersion dep ref)).2 (.inr rfl)
  have hlast := hversions (s.nextVersion dep ref + 1)
  omega

/-- What a step emits: at the versions it adds, where they lift a refusal directly. -/
theorem FigureStep.effect (h : VersionHistory s) (hs : FigureStep s l s') :
    VersionHistory s' ∧ Kept s s' ∧ ∀ d ref v,
      (if s.nextVersion d ref = v then l.lifted d ref else 0) =
        if s.lookup (.figure d ref v) = none ∧ (s'.lookup (.figure d ref v)).isSome ∧
          LiftsDirectly (s'.statusAt d ref) v then 1 else 0 := by
  cases hs with
  | evidence _ e =>
    have hlookup : ∀ k, k ≠ .evidence → (s.insert .evidence e).lookup k = s.lookup k :=
      fun k hk => AList.lookup_insert_ne hk
    refine ⟨h.insert_other trivial (by simp) (by simp), ?_, fun d ref v => ?_⟩
    · intro k row hk hrow
      rw [hlookup k hk, hrow]
    · have hnothing : (if s.nextVersion d ref = v then FigureLabel.other.lifted d ref else 0) = 0 :=
        ite_self 0
      rw [hnothing, hlookup _ (by simp), if_neg]
      rintro ⟨hnone, hsome, -⟩
      simp [hnone] at hsome
  | abort heval =>
    refine ⟨h, Std.Refl.refl s, fun d ref v => ?_⟩
    have hnothing : (if s.nextVersion d ref = v then FigureLabel.other.lifted d ref else 0) = 0 :=
      ite_self 0
    rw [hnothing, if_neg]
    rintro ⟨hnone, hsome, -⟩
    simp [hnone] at hsome
  | @commit F plan rt fl ws dep n n' period _ _ refs depRef heval =>
    have hwrote := wrote_of_computeDeployment h heval
    refine ⟨hwrote.history, hwrote.kept, fun d ref v => ?_⟩
    have hadded : (s.lookup (.figure d ref v) = none ∧ (s'.lookup (.figure d ref v)).isSome) ↔
        s.nextVersion d ref = v ∧ dep = d ∧ ref ∈ refs := by
      rw [hwrote.figures, ← Option.not_isSome_iff_eq_none]
      constructor
      · rintro ⟨hnone, hsome⟩
        obtain ⟨rfl, href, rfl⟩ := hsome.resolve_left hnone
        exact ⟨rfl, rfl, href⟩
      · rintro ⟨rfl, rfl, href⟩
        rw [nextVersion_new h.kept]
        exact ⟨by simp, .inr ⟨rfl, href, rfl⟩⟩
    simp only [← and_assoc, hadded]
    by_cases hv : s.nextVersion d ref = v
    · by_cases hd : dep = d
      · subst hv hd
        simp only [if_true, true_and, FigureLabel.lifted]
        rw [liftedEvents_figureEvents hwrote.distinct]
        refine if_congr (and_congr_right fun href => ?_) rfl rfl
        exact newestStatuses_iff hwrote.history (hwrote.nextVersion h href).symm
      · simp [hd, FigureLabel.lifted]
    · simp [hv]

/-- What has been committed stays as it was found. -/
theorem liftsDirectly_of_kept (h : VersionHistory s) (hle : Kept s s') (h' : VersionHistory s')
    (hv : (s.lookup (.figure d ref v)).isSome) :
    LiftsDirectly (s'.statusAt d ref) v ↔ LiftsDirectly (s.statusAt d ref) v := by
  have hprev : s'.statusAt d ref (v - 1) = s.statusAt d ref (v - 1) := by
    obtain ⟨hpos, hlt⟩ := (isSome_iff_lt_nextVersion h v).1 hv
    rcases Nat.eq_zero_or_pos (v - 1) with hzero | hprev
    · have hnone : ∀ r : Records, VersionHistory r → r.statusAt d ref (v - 1) = none := by
        intro r hr
        rw [← Option.not_isSome_iff_eq_none, isSome_statusAt, isSome_iff_lt_nextVersion hr]
        omega
      rw [hnone s' h', hnone s h]
    · exact statusAt_of_kept hle ((isSome_iff_lt_nextVersion h _).2 ⟨hprev, by omega⟩)
  rw [LiftsDirectly, LiftsDirectly, statusAt_of_kept hle hv, hprev]

/-- A run emits at the versions it adds, where they lift a refusal directly. -/
theorem liftedAt_of_run (h : VersionHistory s) (hrun : Run FigureStep s trace s') :
    VersionHistory s' ∧ Kept s s' ∧ liftedAt d ref v trace =
      if s.lookup (.figure d ref v) = none ∧ LiftsDirectly (s'.statusAt d ref) v then 1 else 0 := by
  induction hrun with
  | refl s =>
    refine ⟨h, Std.Refl.refl s, ?_⟩
    rw [if_neg]
    · rfl
    · rintro ⟨hnone, hcomputed, -⟩
      rw [Records.statusAt, hnone] at hcomputed
      cases hcomputed
  | @head s t u l trace hs hrun ih =>
    obtain ⟨ht, hst, hstep⟩ := hs.effect h
    obtain ⟨hu, htu, hrest⟩ := ih ht
    refine ⟨hu, IsTrans.trans _ _ _ hst htu, ?_⟩
    rw [liftedAt, List.map_cons, List.sum_cons, hstep, ← liftedAt, hrest]
    cases hnew : t.lookup (.figure d ref v) with
    | none =>
      have hnone : s.lookup (.figure d ref v) = none := by
        rw [← Option.not_isSome_iff_eq_none]
        intro hsome
        have hkept := isSome_of_kept hst (by simp) hsome
        simp [hnew] at hkept
      simp [hnone]
    | some row =>
      have hsame : LiftsDirectly (u.statusAt d ref) v ↔ LiftsDirectly (t.statusAt d ref) v :=
        liftsDirectly_of_kept ht htu hu (by simp [hnew])
      simp [hsame]

/-- `refusal.lifted` is emitted once for a version that lifts a refusal, and for no
other, exactly where no version that awaits parameters directly precedes it. -/
theorem liftedAt_eq_iff (hstart : NoFigures s) (hrun : Run FigureStep s trace s') (d : ℕ)
    (ref : PyStr) (v : ℕ) :
    (liftedAt d ref v trace = if LiftsRefusal (s'.statusAt d ref) v then 1 else 0) ↔
      ¬ LiftsLate (s'.statusAt d ref) v := by
  obtain ⟨hhistory, -, hlifted⟩ :=
    @liftedAt_of_run s s' d v ref trace (versionHistory_of_noFigures hstart) hrun
  have hzero : s'.statusAt d ref 0 = none := by
    rw [← Option.not_isSome_iff_eq_none, isSome_statusAt, isSome_iff_lt_nextVersion hhistory]
    omega
  rw [hlifted, hstart _ (by simp)]
  by_cases hlate : LiftsLate (s'.statusAt d ref) v
  · simp [hlate, hlate.1, not_liftsDirectly_of_late hlate]
  · simp [liftsRefusal_iff hzero v, hlate]

end LiftedRuns

/-! ### Refused, then answerable -/

/-- Exact arithmetic: what `float` computes on the few small numbers of the runs below. -/
def exactFloats : Floats ℚ where
  hours span := span / 3600000
  ofNat n := n
  ofJson
    | .num (.int n) => .ok n
    | .num (.float q) => .ok q
    | _ => .error .typeError
  sum := List.sum
  max xs := xs.foldr max (xs.headD 0)
  min xs := xs.foldr min (xs.headD 0)
  sub x y := x - y
  mul x y := x * y
  div x y := x / y
  ratio m n := m / n
  abs x := |x|
  sqrt n := n.sqrt
  lt x y := x < y
  round x n := roundHalfEven (x * 10 ^ n) / 10 ^ n
  toDecimal := .finite
  toNum := .float

/-- An event of work item `id` on 1 July 2026, some hours into the day. -/
def withEvent (s : Db) (key : PyStr) (t : EventType) (payload : Dict) (id hour : ℕ) : Db :=
  s.insert (.event 1 key (63918460800000 + hour * 3600000))
    { deploymentId := 1
      eventType := t
      originType := .vendorProduct
      pipelineStatus := .joined
      schemaVersion := py "1.0"
      sourceRef := none
      payload := payload
      resolvedUserId := none
      workItemId := some id
      exclusionReason := none }

/-- A work item with its hours, and an activity on it if it is assisted. -/
def withItem (s : Db) (id hours : ℕ) (isAssisted : Bool) : Db :=
  let name := py (toString id)
  let opened := withEvent (s.insert (.workItem 1 name) ⟨id, none, none⟩) (py "created" ++ name)
    .lifecycle [(py "event", .str (py "created"))] id 0
  let closed := withEvent opened (py "completed" ++ name) .lifecycle
    [(py "event", .str (py "completed"))] id hours
  if isAssisted then withEvent closed (py "activity" ++ name) .activity [] id 0 else closed

/-- Two items of four hours were assisted, one of seven was not; one of an hour may
have been. -/
def handledItems (isAssisted : Bool) : Db :=
  withItem (withItem (withItem (withItem ∅ 1 4 true) 2 4 true) 3 1 isAssisted) 4 7 false

/-- A parameter set with the price of an hour, if there is one. -/
def handledEvidence (isAssisted : Bool) (rate : Option ℕ) : Evidence where
  db := handledItems isAssisted
  books :=
    { sampleBooks with
      parameterSets := rate.toList.map fun r =>
        ⟨1, 1, 739798, [(py "labor_rates", .obj [(py "default", .num (.int r))])]⟩ }

/-- `compute_deployment` for July after each of these changes. -/
def computeAfter : List Evidence → Records → ℕ → Option (List (Records × FigureLabel) × Records)
  | [], s, _ => some ([], s)
  | e :: changes, s, n =>
    match (computeDeployment .utc ⟨fun _ => none, id⟩ exactFloats 1 1 (py "2026-07")).eval
      (s.insert .evidence e) n with
    | (.ok (.written refs, s'), n') =>
      (computeAfter changes s' n').map fun x =>
        ((s, .other) :: (s.insert .evidence e,
          .computed 1 (figureEvents s' 1 (some (py "d")) (py "2026-07") refs)) :: x.1, x.2)
    | _ => none

theorem run_computeAfter {changes : List Evidence} {s s' : Records} {n : ℕ}
    {trace : List (Records × FigureLabel)} (h : computeAfter changes s n = some (trace, s')) :
    Run FigureStep s trace s' := by
  induction changes generalizing s n trace with
  | nil =>
    cases h
    exact .refl _
  | cons e changes ih =>
    unfold computeAfter at h
    split at h
    · rename_i refs t n' heval
      obtain ⟨⟨rest, last⟩, hrest, heq⟩ := Option.map_eq_some_iff.1 h
      cases heq
      exact .head (.evidence s e) (.head (.commit _ heval) (ih hrest))
    · cases h

/-- Refused, then computed with the price of an hour, and once more. -/
theorem liftedAt_eq_iff_lifted : ∃ trace s', Run FigureStep ∅ trace s' ∧
    liftedAt 1 (py "fig_time_2026-07") 2 trace = 1 ∧
    liftedAt 1 (py "fig_time_2026-07") 3 trace = 0 := by
  let computed := handledEvidence true (some 20)
  have hrun : (computeAfter [handledEvidence false none, computed, computed] ∅ 1).any fun x =>
      LiftsRefusal (x.2.statusAt 1 (py "fig_time_2026-07")) 2 ∧
        ¬ LiftsRefusal (x.2.statusAt 1 (py "fig_time_2026-07")) 3 ∧
        x.2.statusAt 1 (py "fig_time_2026-07") 1 = some .refused ∧
        x.2.statusAt 1 (py "fig_time_2026-07") 2 = some .computed := by decide +kernel
  obtain ⟨⟨trace, s'⟩, hx, hstatus⟩ := (Option.any_eq_true _ _).1 hrun
  simp only [decide_eq_true_eq] at hstatus
  obtain ⟨hlifts, hnot, hrefused, hcomputed⟩ := hstatus
  have hrun := run_computeAfter hx
  have hstart : NoFigures ∅ := fun k _ => AList.lookup_empty k
  refine ⟨trace, s', hrun, ?_, ?_⟩
  · rw [(liftedAt_eq_iff hstart hrun 1 (py "fig_time_2026-07") 2).2, if_pos hlifts]
    intro hlate
    cases hrefused.symm.trans hlate.2
  · rw [(liftedAt_eq_iff hstart hrun 1 (py "fig_time_2026-07") 3).2, if_neg hnot]
    intro hlate
    cases hcomputed.symm.trans hlate.2

/-- Refused, answerable but without a price, then computed with one: the refusal is
lifted and nothing is emitted. -/
theorem awaiting_hides_refusal : ∃ trace s', Run FigureStep ∅ trace s' ∧ NoFigures ∅ ∧
    LiftsRefusal (s'.statusAt 1 (py "fig_time_2026-07")) 3 ∧
    liftedAt 1 (py "fig_time_2026-07") 3 trace = 0 := by
  have hrun : (computeAfter [handledEvidence false none, handledEvidence true none,
      handledEvidence true (some 20)] ∅ 1).any fun x =>
      LiftsRefusal (x.2.statusAt 1 (py "fig_time_2026-07")) 3 ∧
        liftedAt 1 (py "fig_time_2026-07") 3 x.1 = 0 := by decide +kernel
  obtain ⟨⟨trace, s'⟩, hx, hstatus⟩ := (Option.any_eq_true _ _).1 hrun
  simp only [decide_eq_true_eq] at hstatus
  exact ⟨trace, s', run_computeAfter hx, fun k _ => AList.lookup_empty k, hstatus⟩

end TrueFigure.Server
