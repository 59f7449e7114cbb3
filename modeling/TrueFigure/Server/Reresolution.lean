import TrueFigure.Server.GaugeOrder
import TrueFigure.Server.Roster

/-!
# Processed events are never resolved again

`run_pipeline` selects accepted events only, and no other operation writes the
resolution columns. So an event that left `accepted` without a person keeps no
person, whatever the roster learns later.
-/
namespace TrueFigure.Server

open TrueFigure.Library TrueFigure.Python

/-! ### Roster calls are arrivals -/

theorem arrives_insertIdentifier (conn : RosterConnection) (workspaceId userId : ℕ)
    (ns value : PyStr) {next : Transaction} (h : Arrives next) :
    Arrives (insertIdentifier conn workspaceId userId ns value next) := by
  refine arrives_read fun s => ?_
  split_ifs
  · exact h
  · exact arrives_write (fun _ _ _ => trivial) fun _ => h

theorem arrives_addIdentifiers (conn : RosterConnection) (workspaceId userId : ℕ)
    (idents : List RosterIdentifier) : Arrives (addIdentifiers conn workspaceId userId idents) := by
  induction idents with
  | nil => exact arrives_pure _
  | cons ident idents ih =>
    unfold addIdentifiers
    split
    · exact arrives_throw _
    · exact arrives_throw _
    · refine arrives_read fun s => ?_
      split_ifs
      · exact arrives_throw _
      · exact arrives_insertIdentifier _ _ _ _ _ ih

theorem upsertRoster_arrives (conn : RosterConnection) (workspaceId : ℕ)
    (users : List RosterUser) : (upsertRoster conn workspaceId users).All Arrives := by
  have hloop : ∀ results, (upsertRosterFrom conn workspaceId users results).All Arrives := by
    induction users with
    | nil => exact fun results => trivial
    | cons item items ih =>
      intro results
      refine ⟨arrives_fresh fun id => arrives_write (fun _ _ _ => trivial) fun row =>
        arrives_addIdentifiers conn workspaceId _ _, fun r => ?_⟩
      dsimp only
      split
      · exact ih _
      · exact ih _
      · trivial
  exact hloop []

/-! ### A settled event stays as it is -/

variable {conn : Connection} {s : Db} {ws : ℕ} {key : PyStr} {t : ℤ} {row : EventRow}

theorem processNext_keeps (hrow : row.pipelineStatus ≠ .accepted) :
    Preserves (fun s => s.lookup (.event ws key t) = some row) (processNext conn) := by
  intro log a s h hlog hstored
  rcases runs_processNext h with rfl | ⟨ev, u, x, w, hevent⟩
  · exact hstored
  · have heffect := hevent.effect hlog
    have hne : RowKey.event ws key t ≠ ev.rowKey := by
      intro heq
      obtain ⟨rfl, rfl, rfl⟩ := RowKey.event.inj heq
      cases heffect.stored.symm.trans hstored
      exact hrow heffect.accepted
    exact (heffect.others _ hne (by simp) (by simp) (by simp) (by simp)).trans hstored

theorem arrives_keeps {body : Transaction} (h : Arrives body) :
    Preserves (fun s => s.lookup (.event ws key t) = some row) body := by
  intro log a s hruns hlog hstored
  have hall := h log _ hruns
  clear hruns
  induction log generalizing s with
  | nil => exact hstored
  | cons c log ih =>
    obtain ⟨hbefore, hlog⟩ := hlog
    have hne : RowKey.event ws key t ≠ c.key := by
      intro heq
      have hc := hall c List.mem_cons_self
      obtain ⟨k, before, after⟩ := c
      cases heq
      obtain ⟨rfl, -⟩ := hc
      cases hbefore.symm.trans hstored
    refine ih _ hlog ?_ fun d hd => hall d (List.mem_cons_of_mem c hd)
    rw [AList.lookup_insert_ne hne]
    exact hstored

/-- A worker, a roster call, or any process by which events arrive. -/
inductive PipelineParty : Process → Prop
  | worker (conn : Connection) (limit : ℕ) : PipelineParty (runPipeline conn limit)
  | roster (conn : RosterConnection) (workspaceId : ℕ) (users : List RosterUser) :
    PipelineParty (upsertRoster conn workspaceId users)
  | arrival {p : Process} (h : p.All Arrives) : PipelineParty p

/-- The transactions of such parties. -/
def PipelineBody (body : Transaction) : Prop := Arrives body ∨ ∃ conn, body = processNext conn

theorem PipelineParty.all {p : Process} (h : PipelineParty p) : p.All PipelineBody := by
  have harrives : ∀ {p : Process}, p.All Arrives → p.All PipelineBody :=
    fun h => Proc.All.mono (fun _ h => .inl h) h
  cases h with
  | worker conn limit => exact runPipelineFrom_all (.inr ⟨conn, rfl⟩) limit _
  | roster conn workspaceId users =>
    exact harrives (upsertRoster_arrives conn workspaceId users)
  | arrival h => exact harrives h

theorem settled_stays {ι : Type} [DecidableEq ι] {w₀ w w' : World ι Row Failure Reply Outcome}
    (hparties : ∀ i, ∃ p : Process, w₀.stations i = .resting p ∧ PipelineParty p)
    (hreach : Reachable (fun _ => True) w₀ w) (hreach' : Reachable (fun _ => True) w w')
    (hstored : w.committed.lookup (.event ws key t) = some row)
    (hrow : row.pipelineStatus ≠ .accepted) :
    w'.committed.lookup (.event ws key t) = some row := by
  have hidle : w₀.Idle PipelineBody := fun i =>
    have ⟨p, hp, hparty⟩ := hparties i
    ⟨p, hp, hparty.all⟩
  have hsound := hidle.sound.reachable hreach
  have hok : WorldOk (fun s : Db => s.lookup (.event ws key t) = some row) w := by
    refine hsound.worldOk (fun body hbody => ?_) hstored
    rcases hbody with harrives | ⟨conn, rfl⟩
    · exact arrives_keeps harrives
    · exact processNext_keeps hrow
  exact (hok.reachable hreach').committed

/-! ### Resolution after the fact -/

/-- The event has left `accepted` without a person, and by now the roster would
resolve it to this person, who is not excluded. -/
def Resolvable (conn : Connection) (s : Db) (ws : ℕ) (key : PyStr) (t : ℤ) (userId : ℕ) : Prop :=
  ∃ row : EventRow, s.lookup (.event ws key t) = some row ∧ row.pipelineStatus ≠ .accepted ∧
    row.resolvedUserId = none ∧ identityOf conn s ⟨ws, key, t, row⟩ = .ok (some userId, none)

def ResolvedTo (s : Db) (ws : ℕ) (key : PyStr) (t : ℤ) (userId : ℕ) : Prop :=
  ∃ row : EventRow, s.lookup (.event ws key t) = some row ∧ row.resolvedUserId = some userId

theorem unresolved_stays {ι : Type} [DecidableEq ι] {w₀ w w' : World ι Row Failure Reply Outcome}
    (hparties : ∀ i, ∃ p : Process, w₀.stations i = .resting p ∧ PipelineParty p)
    (hreach : Reachable (fun _ => True) w₀ w) (hreach' : Reachable (fun _ => True) w w')
    {userId : ℕ} (h : Resolvable conn w.committed ws key t userId) :
    ¬ ResolvedTo w'.committed ws key t userId := by
  rintro ⟨row', hrow', hresolved⟩
  obtain ⟨row, hrow, hstatus, hnone, -⟩ := h
  cases (settled_stays hparties hreach hreach' hrow hstatus).symm.trans hrow'
  rw [hnone] at hresolved
  cases hresolved

/-- No run of workers, roster calls and arrivals resolves such an event. -/
theorem never_resolved {ι : Type} [DecidableEq ι] {w₀ w : World ι Row Failure Reply Outcome}
    (hparties : ∀ i, ∃ p : Process, w₀.stations i = .resting p ∧ PipelineParty p)
    (hreach : Reachable (fun _ => True) w₀ w) {userId : ℕ}
    (h : Resolvable conn w.committed ws key t userId) :
    ¬ ∃ w', Reachable (fun _ => True) w w' ∧ ResolvedTo w'.committed ws key t userId := by
  rintro ⟨w', hreach', hresolved⟩
  exact unresolved_stays hparties hreach hreach' h hresolved

/-! ### A roster that comes late -/

/-- A user of the roster, without dates. -/
def rosterPerson : RosterUser := { userRef := py "u1" }

/-- An activity of `u1` waits, the roster is empty; a tick, the roster call, and
a second tick are to come. -/
def lateRoster : World Ticks Row Failure Reply Outcome where
  committed := (∅ : Db).insert (.event 1 (py "k") 5) waitingEvent
  sequence := 7
  stations
    | .first => .resting (runPipeline utcConnection 3)
    | .request => .resting (upsertRoster ⟨fun _ => .error .invalidText, fun _ => true⟩ 1 [rosterPerson])
    | .second => .resting (runPipeline utcConnection 3)

theorem parties_lateRoster (i : Ticks) :
    ∃ p : Process, lateRoster.stations i = .resting p ∧ PipelineParty p := by
  cases i with
  | first => exact ⟨_, rfl, .worker _ 3⟩
  | request => exact ⟨_, rfl, .roster _ 1 _⟩
  | second => exact ⟨_, rfl, .worker _ 3⟩

set_option maxRecDepth 4000 in
/-- After the first tick and the roster call the event is resolvable. -/
theorem resolvable_lateRoster : ∃ w, Reachable (fun _ => True) lateRoster w ∧
    Resolvable utcConnection w.committed 1 (py "k") 5 8 := by
  have hresting : lateRoster.Resting := fun i =>
    have ⟨p, hp, _⟩ := parties_lateRoster i
    ⟨p, hp⟩
  obtain ⟨w₁, hreach₁, hrest₁, hrows₁, hnext₁, hothers₁⟩ :=
    run_resting (i := .first) hresting rfl
  obtain ⟨w₂, hreach₂, hrest₂, hrows₂, -⟩ :=
    run_resting (i := .request) hrest₁ (hothers₁ .request (by decide))
  refine ⟨w₂, hreach₁.trans hreach₂, ?_⟩
  rw [hrows₂, hrows₁, hnext₁]
  exact ⟨_, rfl, by decide, rfl, rfl⟩

theorem never_resolved_lateRoster : ∃ w, Reachable (fun _ => True) lateRoster w ∧
    Resolvable utcConnection w.committed 1 (py "k") 5 8 ∧
    ¬ ∃ w', Reachable (fun _ => True) w w' ∧ ResolvedTo w'.committed 1 (py "k") 5 8 := by
  obtain ⟨w, hreach, hresolvable⟩ := resolvable_lateRoster
  exact ⟨w, hreach, hresolvable, never_resolved parties_lateRoster hreach hresolvable⟩

/-- `docs/semantics.md` calls such events re-resolvable forever; this one is not. -/
theorem lateRoster_unresolved : ¬ ∀ w userId, Reachable (fun _ => True) lateRoster w →
    Resolvable utcConnection w.committed 1 (py "k") 5 userId →
      ∃ w', Reachable (fun _ => True) w w' ∧ ResolvedTo w'.committed 1 (py "k") 5 userId := by
  intro h
  obtain ⟨w, hreach, hresolvable⟩ := resolvable_lateRoster
  obtain ⟨w', hreach', hresolved⟩ := h w 8 hreach hresolvable
  exact unresolved_stays parties_lateRoster hreach hreach' hresolvable hresolved

end TrueFigure.Server
