import Mathlib.Algebra.Order.Group.Multiset
import Mathlib.Data.List.ReduceOption
import TrueFigure.Python.Values
import TrueFigure.Sdk.FlushInvariant

/-!
# No event is lost by the queue

`_enqueue` and `flush` over a session. Without a buffer, a refused chunk goes back
to `_pending` and the chunks after it are dropped.
-/
namespace TrueFigure.Sdk

open TrueFigure.Library Interruptible TrueFigure.Python

variable {Envelope : Type}

/-- The answers when every request succeeds or ends in `TrueFigureError`. -/
def prompt (accepts : ℕ → Bool) (offset : ℕ) : Answer :=
  if accepts offset then .acknowledged else .refused

/-- A call of `track` or `flush`, with the chunks the server accepts if it flushes. -/
inductive Call (Envelope : Type)
  | track (e : Envelope) (accepts : ℕ → Bool)
  | flush (accepts : ℕ → Bool)

/-- A client, the envelopes acknowledged so far and all it was ever given. -/
structure Session (Envelope : Type) where
  client : Client Envelope
  delivered : List Envelope
  given : List Envelope

def Client.session (c : Client Envelope) : Session Envelope := ⟨c, [], c.spooled ++ c.pending⟩

namespace Session

def flush (n : ℕ) (s : Session Envelope) (accepts : ℕ → Bool) : Session Envelope :=
  let t := ((Sdk.flush n (prompt accepts)).run s.client.entering).final
  { s with client := t.client, delivered := s.delivered ++ t.delivered }

/-- `self._pending.append(envelope)` -/
def push (s : Session Envelope) (e : Envelope) : Session Envelope :=
  { s with client := { s.client with pending := s.client.pending ++ [e] }, given := s.given ++ [e] }

def enqueue (n : ℕ) (s : Session Envelope) (e : Envelope) (accepts : ℕ → Bool) : Session Envelope :=
  if n ≤ (s.push e).client.pending.length then (s.push e).flush n accepts else s.push e

def perform (n : ℕ) (s : Session Envelope) : Call Envelope → Session Envelope
  | .track e accepts => s.enqueue n e accepts
  | .flush accepts => s.flush n accepts

/-- The session after these calls, whether they return or raise. -/
def after (n : ℕ) (s : Session Envelope) (calls : List (Call Envelope)) : Session Envelope :=
  calls.foldl (perform n) s

/-- What was given is acknowledged, pending or in the spool. -/
def Conserved (s : Session Envelope) : Prop :=
  (s.given : Multiset Envelope) = (s.delivered : Multiset Envelope) +
    ((s.client.pending : Multiset Envelope) + (s.client.spooled : List _))

end Session

/-- Every line of the spool can be read. -/
def OfflineBuffer.Readable (b : OfflineBuffer Envelope) : Prop := none ∉ b.file.getD []

/-- A flush of this client loses nothing: with a buffer, the spool can be read or
nothing is pending; without one, no chunk but the last is refused. -/
def Client.FlushSound (n : ℕ) (accepts : ℕ → Bool) (c : Client Envelope) : Prop :=
  match c.buffer with
  | some b => b.Readable ∨ c.pending = []
  | none => ∀ k, n * k + n < c.pending.length → accepts (n * k)

/-- The call flushes only where that loses nothing. -/
def Session.CallSound (n : ℕ) (s : Session Envelope) : Call Envelope → Prop
  | .track e accepts =>
    n ≤ (s.push e).client.pending.length → (s.push e).client.FlushSound n accepts
  | .flush accepts => s.client.FlushSound n accepts

variable {n : ℕ} {accepts : ℕ → Bool} {c : Client Envelope} {s : Session Envelope}

theorem map_some_reduceOption {lines : List (Option Envelope)} (h : none ∉ lines) :
    lines.reduceOption.map some = lines := by
  induction lines with
  | nil => rfl
  | cons line lines ih =>
    rw [List.mem_cons, not_or] at h
    cases line with
    | none => exact absurd rfl h.1
    | some e => rw [List.reduceOption_cons_of_some, List.map_cons, ih h.2]

theorem mapM_id_eq_none {lines : List (Option Envelope)} : lines.mapM id = none ↔ none ∈ lines := by
  constructor
  · intro hnone
    by_contra hmem
    rw [mapM_id_eq_some.2 (map_some_reduceOption hmem).symm] at hnone
    cases hnone
  · intro hmem
    cases hread : lines.mapM id with
    | none => rfl
    | some items =>
      rw [mapM_id_eq_some] at hread
      simp [hread] at hmem

theorem prompt_eq_refused {i : ℕ} : prompt accepts i = .refused ↔ accepts i = false := by
  unfold prompt
  cases accepts i <;> simp

/-- A spool that cannot be read ends the flush, with nothing pending any more. -/
theorem flush_unreadable {b : OfflineBuffer Envelope} {lines : List (Option Envelope)}
    (hb : c.buffer = some b) (hfile : b.file = some lines) (hread : lines.mapM id = none)
    (answers : ℕ → Answer) :
    ((flush n answers).run c.entering).final = ⟨{ c with pending := [] }, [], .taken⟩ := by
  have hdrain : drain b = raise .decodeError := by
    unfold drain
    simp only [hfile, hread]
  obtain ⟨pending, buffer⟩ := c
  cases hb
  simp only [run, flush, takePending, withSpool, Bind.bind, look, step, raise, hdrain, Client.entering,
    Pure.pure]

/-- Where the flush of a client ends, all it had is acknowledged, pending or in the
spool. -/
def Balanced (c : Client Envelope) (t : Flushing Envelope) : Prop :=
  ((c.spooled ++ c.pending : List Envelope) : Multiset Envelope) =
    (t.delivered : Multiset Envelope) +
      ((t.client.pending : Multiset Envelope) + (t.client.spooled : List _))

theorem conserved_flush (h : s.Conserved) : (s.flush n accepts).Conserved ↔
    Balanced s.client ((Sdk.flush n (prompt accepts)).run s.client.entering).final := by
  unfold Session.Conserved at h ⊢
  simp only [Session.flush, Balanced]
  rw [h, ← Multiset.coe_add, ← Multiset.coe_add, add_assoc, add_right_inj,
    add_comm (s.client.pending : Multiset Envelope)]

/-- A flush that comes to the end of its batch loses nothing. -/
theorem Sending.balanced {d : ℕ} {t : Flushing Envelope} {answers : ℕ → Answer}
    (hd : (c.spooled ++ c.pending).length ≤ d)
    (h : Sending n answers (c.spooled ++ c.pending) d t) : Balanced c t := by
  have hbalance := h.balance
  rw [← h.kept, List.take_of_length_le hd] at hbalance
  rw [Balanced, h.pending, ← hbalance, Multiset.coe_nil, zero_add]

/-- A prompt transport lets a flush raise for an unreadable spool or a refusal only. -/
theorem Ends.of_prompt {e : Raised} {t : Flushing Envelope} (h : Ends n (prompt accepts) c e t) :
    e = .decodeError ∨ e = .trueFigureError := by
  have hanswers : ∀ i, prompt accepts i = .acknowledged ∨ prompt accepts i = .refused := by
    intro i
    unfold prompt
    split
    · exact .inl rfl
    · exact .inr rfl
  cases e with
  | trueFigureError => exact .inr rfl
  | keyError =>
    obtain ⟨-, -, i, hi⟩ := h
    rcases hanswers i with h | h <;> cases hi.symm.trans h
  | decodeError => exact .inl rfl
  | transportError =>
    obtain ⟨-, -, i, hi⟩ := h
    rcases hanswers i with h | h <;> cases hi.symm.trans h

/-- With a buffer, exactly an unreadable spool makes a flush lose what is pending. -/
theorem balanced_iff_readable (hn : 0 < n) {b : OfflineBuffer Envelope} (hb : c.buffer = some b) :
    Balanced c ((flush n (prompt accepts)).run c.entering).final ↔ b.Readable ∨ c.pending = [] := by
  by_cases hread : b.Readable
  · have hmeets := meets_flush hn (prompt accepts) c
    refine iff_of_true ?_ (.inl hread)
    cases hout : ((flush n (prompt accepts)).run c.entering).outcome with
    | ok a =>
      obtain ⟨-, d, hd, hsending⟩ := hmeets.returning _ a rfl hout
      exact hsending.balanced hd
    | error e =>
      have hends := hmeets.raising _ e rfl hout
      rcases hends.of_prompt with rfl | rfl
      · obtain ⟨-, -, -, b', lines, hb', hfile, hnone⟩ := hends
        cases hb.symm.trans hb'
        rw [mapM_id_eq_none] at hnone
        exact absurd (by rw [hfile]; exact hnone) hread
      · cases hb.symm.trans hends.1
  · have hnone : none ∈ b.file.getD [] := not_not.1 hread
    obtain ⟨lines, hfile⟩ : ∃ lines, b.file = some lines := by
      cases hfile : b.file with
      | none => simp [hfile] at hnone
      | some lines => exact ⟨lines, rfl⟩
    rw [hfile] at hnone
    rw [flush_unreadable hb hfile (mapM_id_eq_none.2 hnone), or_iff_right hread]
    have hspooled : Client.spooled { c with pending := [] } = c.spooled := rfl
    rw [Balanced, hspooled]
    simp only [Flushing.delivered, List.flatMap_nil, Multiset.coe_nil, zero_add, Multiset.coe_eq_coe]
    constructor
    · intro hperm
      have hlength := hperm.length_eq
      rw [List.length_append] at hlength
      exact List.length_eq_zero_iff.1 (by omega)
    · intro hnil
      rw [hnil, List.append_nil]

/-- Without a buffer, exactly a refused chunk before the last one makes a flush lose
the chunks after it. -/
theorem balanced_iff_unrefused (hn : 0 < n) (hb : c.buffer = none) :
    Balanced c ((flush n (prompt accepts)).run c.entering).final ↔
      ∀ k, n * k + n < c.pending.length → accepts (n * k) := by
  have hmeets := meets_flush hn (prompt accepts) c
  have hspooled : c.spooled = [] := by simp [Client.spooled, hb]
  have haccepts : ∀ i, prompt accepts i ≠ .refused → accepts i := by
    intro i hi
    rw [Ne, prompt_eq_refused, Bool.not_eq_false] at hi
    exact hi
  cases hout : ((flush n (prompt accepts)).run c.entering).outcome with
  | ok a =>
    obtain ⟨hvisits, d, hd, hsending⟩ := hmeets.returning _ a rfl hout
    refine iff_of_true (hsending.balanced hd) ?_
    intro k hk
    apply haccepts
    apply hsending.through
    · rw [← Option.isNone_iff_eq_none, ← Option.not_isSome, hvisits.buffered, hb]
      rfl
    · rw [hspooled, List.nil_append] at hd
      omega
  | error e =>
    have hends := hmeets.raising _ e rfl hout
    rcases hends.of_prompt with rfl | rfl
    · obtain ⟨-, -, -, b, -, hb', -⟩ := hends
      cases hb.symm.trans hb'
    · obtain ⟨-, hnone, k, -, hrefused, hearlier, hpending, hdelivered⟩ := hends
      have hkept : Balanced c ((flush n (prompt accepts)).run c.entering).final ↔
          c.pending.length ≤ n * k + n := by
        have hempty : ((flush n (prompt accepts)).run c.entering).final.client.spooled = [] := by
          simp [Client.spooled, hnone]
        rw [Balanced, hpending, hdelivered, hempty, hspooled, List.nil_append, Multiset.coe_nil,
          add_zero, Multiset.coe_add, ← take_add_chunkAt, Multiset.coe_eq_coe]
        constructor
        · intro hperm
          have hlength := hperm.length_eq
          rw [List.length_take] at hlength
          omega
        · intro hle
          rw [List.take_of_length_le hle]
      rw [hkept]
      constructor
      · intro hle j hj
        apply haccepts
        apply hearlier
        have : n * j < n * k := by omega
        exact Nat.lt_of_mul_lt_mul_left this
      · intro hsound
        by_contra hlt
        have hk := hsound k (by omega)
        rw [prompt_eq_refused.1 hrefused] at hk
        cases hk

theorem balanced_iff_sound (hn : 0 < n) : Balanced c
    ((flush n (prompt accepts)).run c.entering).final ↔ c.FlushSound n accepts := by
  unfold Client.FlushSound
  cases hb : c.buffer with
  | some b => exact balanced_iff_readable hn hb
  | none => exact balanced_iff_unrefused hn hb

theorem conserved_push (h : s.Conserved) (e : Envelope) : (s.push e).Conserved := by
  unfold Session.Conserved at h ⊢
  have hspooled : (s.push e).client.spooled = s.client.spooled := rfl
  rw [hspooled]
  simp only [Session.push, ← Multiset.coe_add]
  rw [h, add_assoc, add_assoc, add_comm (s.client.spooled : Multiset Envelope), add_assoc]

theorem conserved_perform (hn : 0 < n) (h : s.Conserved) (call : Call Envelope) :
    (s.perform n call).Conserved ↔ s.CallSound n call := by
  cases call with
  | track e accepts =>
    simp only [Session.perform, Session.enqueue, Session.CallSound]
    split_ifs with hfull
    · rw [conserved_flush (conserved_push h e), balanced_iff_sound hn]
      exact ⟨fun hsound _ => hsound, fun hsound => hsound hfull⟩
    · exact iff_of_true (conserved_push h e) fun h => absurd h hfull
  | flush accepts => exact (conserved_flush h).trans (balanced_iff_sound hn)

theorem after_snoc (s : Session Envelope) (prior : List (Call Envelope)) (call : Call Envelope) :
    s.after n (prior ++ [call]) = (s.after n prior).perform n call := List.foldl_concat ..

theorem conserved_session (c : Client Envelope) : c.session.Conserved := by
  simp only [Session.Conserved, Client.session, ← Multiset.coe_add, Multiset.coe_nil, zero_add]
  exact add_comm _ _

theorem conserved_after_iff (hn : 0 < n) (c : Client Envelope) (calls : List (Call Envelope)) :
    (∀ prior, prior <+: calls → (c.session.after n prior).Conserved) ↔
      ∀ prior call, prior ++ [call] <+: calls → (c.session.after n prior).CallSound n call := by
  constructor
  · intro hconserved prior call hprefix
    have hbefore := hconserved prior ((List.prefix_append _ _).trans hprefix)
    rw [← conserved_perform hn hbefore, ← after_snoc]
    exact hconserved _ hprefix
  · intro hsound prior
    induction prior using List.reverseRecOn with
    | nil => exact fun _ => conserved_session c
    | append_singleton prior call ih =>
      intro hprefix
      have hbefore := ih ((List.prefix_append _ _).trans hprefix)
      rw [after_snoc, conserved_perform hn hbefore]
      exact hsound prior call hprefix

/-- A flush keeps every envelope exactly where its spool can be read or nothing is
pending, and without a buffer where no chunk but the last is refused. In a session
no envelope disappears exactly as long as every flush is of this kind. -/
theorem conserved_iff_sound (hn : 0 < n) (c : Client Envelope) :
    (∀ accepts, Balanced c ((flush n (prompt accepts)).run c.entering).final ↔
      c.FlushSound n accepts) ∧
    ∀ calls, (∀ prior, prior <+: calls → (c.session.after n prior).Conserved) ↔
      ∀ prior call, prior ++ [call] <+: calls → (c.session.after n prior).CallSound n call :=
  ⟨fun _ => balanced_iff_sound hn, conserved_after_iff hn c⟩

/-- Three events of a client without a buffer, `MAX_BATCH` of two, during an outage. -/
def outage : List (Call Json) :=
  [.track (.obj [(py "event_id", .str (py "a"))]) fun _ => false,
    .track (.obj [(py "event_id", .str (py "b"))]) fun _ => false,
    .track (.obj [(py "event_id", .str (py "c"))]) fun _ => false]

/-- The third of them is gone. -/
theorem outage_loses : ¬ ((Client.session ⟨[], none⟩).after 2 outage).Conserved := by
  intro hconserved
  have hcard := congrArg Multiset.card hconserved
  exact absurd hcard (by decide)

/-- What the general statement says of that client. -/
theorem conserved_iff_sound_outage :
    (∀ accepts, Balanced (⟨[], none⟩ : Client Json)
      ((flush 2 (prompt accepts)).run (Client.entering ⟨[], none⟩)).final ↔
      Client.FlushSound 2 accepts (⟨[], none⟩ : Client Json)) ∧
    ∀ calls, (∀ prior, prior <+: calls →
        ((Client.session (⟨[], none⟩ : Client Json)).after 2 prior).Conserved) ↔
      ∀ prior call, prior ++ [call] <+: calls →
        ((Client.session (⟨[], none⟩ : Client Json)).after 2 prior).CallSound 2 call :=
  conserved_iff_sound (by decide) ⟨[], none⟩

end TrueFigure.Sdk
