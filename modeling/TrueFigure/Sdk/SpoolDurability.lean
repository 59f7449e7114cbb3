import Mathlib.Order.Basic
import TrueFigure.Python.Values
import TrueFigure.Sdk.FlushInvariant

/-!
# Durability of the spool

The spool is truncated before anything is sent, and only `TrueFigureError` makes a
flush write a chunk back. Where a flush may be cut short without a loss.
-/
namespace TrueFigure.Sdk

open TrueFigure.Library Interruptible TrueFigure.Python

variable {Envelope : Type} {n : ℕ} {answers : ℕ → Answer} {c : Client Envelope}
  {t : Flushing Envelope}

/-- Every envelope that was in the spool, of a chunk not acknowledged, still is. -/
def SpoolKept (c : Client Envelope) (t : Flushing Envelope) : Prop :=
  (unacked t.acked 0 c.spooled : Multiset Envelope) ≤ (t.client.spooled : List _)

/-- Every envelope that was in the spool or pending, of a chunk not acknowledged,
still is. -/
def QueueKept (c : Client Envelope) (t : Flushing Envelope) : Prop :=
  (unacked t.acked 0 (c.spooled ++ c.pending) : Multiset Envelope) ≤
    (t.client.pending : Multiset Envelope) + (t.client.spooled : List _)

/-- A crash at this point costs nothing: the spool is still there, or the flush
has come past what was in it. -/
def Point.CrashSafe (n : ℕ) (c : Client Envelope) (p : Point) : Prop :=
  p.underway → c.spooled.length ≤ p.passed n

/-- An exception at this point costs nothing: nothing was pending, or the flush has
come past its whole batch. -/
def Point.RaiseSafe (n : ℕ) (c : Client Envelope) (p : Point) : Prop :=
  if p.underway then c.spooled.length + c.pending.length ≤ p.passed n else c.pending = []

/-- The front of a batch is kept once the flush has come past it. -/
theorem Sending.kept_iff {front back : List Envelope} {d : ℕ}
    (h : Sending n answers (front ++ back) d t) :
    (unacked t.acked 0 front : Multiset Envelope) ≤ (t.client.spooled : List _) ↔
      front.length ≤ d := by
  rw [h.kept, Multiset.coe_le]
  constructor
  · intro hle
    by_contra hlt
    have htake : (front ++ back).take d = front.take d :=
      List.take_append_of_le_length (by omega)
    have hlength : (front.take d).length = d := by
      rw [List.length_take]
      omega
    have hsplit : unacked t.acked 0 front = unacked t.acked 0 (front.take d) ++ front.drop d := by
      have happend := @unacked_append _ t.acked 0 (front.take d) (front.drop d)
      rw [List.take_append_drop, hlength, Nat.zero_add, unacked_of_le h.within] at happend
      exact happend
    have hcard := hle.length_le
    rw [htake, hsplit, List.length_append, List.length_drop] at hcard
    omega
  · intro hle
    have htake : (front ++ back).take d = front ++ back.take (d - front.length) := by
      rw [List.take_append, List.take_of_length_le hle]
    rw [htake, unacked_append]
    exact (List.sublist_append_left _ _).subperm

theorem spoolKept_iff (h : Visits n answers c t) : SpoolKept c t ↔ t.point.CrashSafe n c := by
  unfold SpoolKept Point.CrashSafe
  cases hunder : t.point.underway with
  | false =>
    obtain ⟨hacked, hbuffer⟩ := h.before hunder
    have hspooled : t.client.spooled = c.spooled := by simp [Client.spooled, hbuffer]
    rw [hacked, hspooled, unacked_of_le (by simp)]
    simp
  | true =>
    rw [(h.during hunder).kept_iff]
    simp

theorem queueKept_iff (h : Visits n answers c t) (hpending : t.client.pending = []) :
    SpoolKept c t ∧ QueueKept c t ↔ t.point.RaiseSafe n c := by
  rw [spoolKept_iff h]
  unfold QueueKept Point.RaiseSafe Point.CrashSafe
  rw [hpending, Multiset.coe_nil, Multiset.zero_add]
  cases hunder : t.point.underway with
  | false =>
    obtain ⟨hacked, hbuffer⟩ := h.before hunder
    have hspooled : t.client.spooled = c.spooled := by simp [Client.spooled, hbuffer]
    rw [hacked, hspooled, unacked_of_le (by simp), Multiset.coe_le]
    constructor
    · rintro ⟨-, hle⟩
      have hcard := hle.length_le
      rw [List.length_append] at hcard
      exact List.length_eq_zero_iff.1 (by omega)
    · intro hnil
      have hnil : c.pending = [] := hnil
      rw [hnil, List.append_nil]
      exact ⟨fun h => absurd h Bool.false_ne_true, List.Subperm.refl _⟩
  | true =>
    have hkept := h.during hunder
    rw [← List.append_nil (c.spooled ++ c.pending)] at hkept
    rw [hkept.kept_iff, List.length_append]
    constructor
    · rintro ⟨-, hle⟩
      exact hle
    · intro hle
      have hle : c.spooled.length + c.pending.length ≤ t.point.passed n := hle
      exact ⟨fun _ => by omega, hle⟩

/-- An exception leaves nothing pending in a client with a buffer. -/
theorem Ends.visits {e : Raised} (h : Ends n answers c e t) (hbuffer : c.buffer ≠ none) :
    Visits n answers c t ∧ t.client.pending = [] := by
  cases e with
  | trueFigureError => exact absurd h.1 hbuffer
  | keyError => exact ⟨h.1, (h.1.during h.2.1).pending⟩
  | decodeError =>
    obtain ⟨hpoint, hclient, hacked, -⟩ := h
    refine ⟨⟨fun _ => ⟨hacked, by rw [hclient]⟩, ?_, by rw [hclient]⟩, by rw [hclient]⟩
    rw [hpoint]
    exact nofun
  | transportError => exact ⟨h.1, (h.1.during h.2.1).pending⟩

/-- A flush may be cut short without a loss in the spool exactly where the spool is
still untouched or the flush has come past what was in it, and it may raise without
a loss exactly where nothing was pending or it has come past the pending events too. -/
theorem durable_iff_safe (hn : 0 < n) (answers : ℕ → Answer) (pending : List Envelope)
    (buffer : OfflineBuffer Envelope) :
    let c : Client Envelope := ⟨pending, some buffer⟩
    let course := (flush n answers).run c.entering
    (∀ t ∈ course.moments, SpoolKept c t ↔ t.point.CrashSafe n c) ∧
    ∀ e, course.outcome = .error e →
      (SpoolKept c course.final ∧ QueueKept c course.final ↔ course.final.point.RaiseSafe n c) := by
  intro c course
  have hmeets := meets_flush hn answers c
  have hbuffer : c.buffer ≠ none := nofun
  constructor
  · intro t ht
    have hvisits : Visits n answers c t :=
      hmeets.moments (fun _ _ h => h.1) (fun _ _ h => (h.visits hbuffer).1) rfl ht
    exact spoolKept_iff hvisits
  · intro e he
    obtain ⟨hvisits, hpending⟩ := (hmeets.raising _ e rfl he).visits hbuffer
    exact queueKept_iff hvisits hpending

/-- A client that starts again with one event in its spool, during an outage. -/
def restarted : Client Json :=
  ⟨[], some ⟨some [some (.obj [(py "event_type", .str (py "activity"))])]⟩⟩

/-- The flush of `restarted` raises, and the event is neither in the spool nor pending. -/
theorem restarted_loses :
    let course := (flush 500 fun _ => .failed).run restarted.entering
    course.outcome = .error .transportError ∧ course.final.client = ⟨[], some ⟨some []⟩⟩ ∧
      course.final.acked = [] ∧ ¬ SpoolKept restarted course.final := by
  refine ⟨rfl, rfl, rfl, ?_⟩
  intro hkept
  have hcard := Multiset.card_le_card hkept
  exact absurd hcard (by decide)

/-- What the general statement says of `restarted`. -/
theorem durable_iff_safe_restarted :
    let c : Client Json := ⟨[], restarted.buffer⟩
    let course := (flush 500 fun _ => .acknowledged).run c.entering
    (∀ t ∈ course.moments, SpoolKept c t ↔ t.point.CrashSafe 500 c) ∧
    ∀ e, course.outcome = .error e →
      (SpoolKept c course.final ∧ QueueKept c course.final ↔
        course.final.point.RaiseSafe 500 c) :=
  durable_iff_safe (by decide) (fun _ => .acknowledged) [] _

end TrueFigure.Sdk
