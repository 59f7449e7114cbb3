import Mathlib.Data.Multiset.AddSub
import TrueFigure.Sdk.Flush

/-!
# What holds inside a flush

A flush deals with its batch from the front: what it has come past is acknowledged
or written back to the spool.
-/
namespace TrueFigure.Sdk

open TrueFigure.Library Interruptible

variable {Envelope : Type}

/-- The position belongs to an acknowledged chunk. -/
def covered (acked : List (ℕ × List Envelope)) (position : ℕ) : Bool :=
  acked.any fun c => decide (c.1 ≤ position ∧ position < c.1 + c.2.length)

/-- The envelopes of a part of a batch, from this position on, that no
acknowledged chunk covers. -/
def unacked (acked : List (ℕ × List Envelope)) : ℕ → List Envelope → List Envelope
  | _, [] => []
  | position, e :: l =>
    if covered acked position then unacked acked (position + 1) l
    else e :: unacked acked (position + 1) l

section Unacked

variable {acked : List (ℕ × List Envelope)} {position offset : ℕ} {l l' chunk : List Envelope}

theorem unacked_append : unacked acked position (l ++ l') =
    unacked acked position l ++ unacked acked (position + l.length) l' := by
  induction l generalizing position with
  | nil => rfl
  | cons e l ih =>
    have hlength : position + 1 + l.length = position + (l.length + 1) := by omega
    simp only [List.cons_append, unacked, ih, List.length_cons, hlength]
    split <;> rfl

/-- Nothing is acknowledged from here on. -/
theorem unacked_of_le (h : ∀ c ∈ acked, c.1 + c.2.length ≤ position) :
    unacked acked position l = l := by
  induction l generalizing position with
  | nil => rfl
  | cons e l ih =>
    have hnot : covered acked position = false := by
      rw [covered, List.any_eq_false]
      intro c hc
      have := h c hc
      simp only [decide_eq_true_eq]
      omega
    rw [unacked, hnot, ih fun c hc => (h c hc).trans (Nat.le_succ _)]
    rfl

theorem unacked_cons_of_le (h : position + l.length ≤ offset) :
    unacked ((offset, chunk) :: acked) position l = unacked acked position l := by
  induction l generalizing position with
  | nil => rfl
  | cons e l ih =>
    rw [List.length_cons] at h
    have hnot : covered ((offset, chunk) :: acked) position = covered acked position := by
      have : ¬(offset ≤ position ∧ position < offset + chunk.length) := by omega
      simp [covered, this]
    rw [unacked, unacked, hnot, ih (by omega)]

/-- An acknowledged chunk leaves nothing. -/
theorem unacked_cons_self : unacked ((position, l) :: acked) position l = [] := by
  suffices h : ∀ front back : List Envelope, front ++ back = l →
      unacked ((position, l) :: acked) (position + front.length) back = [] from h [] l rfl
  intro front back hl
  induction back generalizing front with
  | nil => rfl
  | cons e back ih =>
    have hcovered : covered ((position, l) :: acked) (position + front.length) = true := by
      have : front.length < l.length := by
        rw [← hl, List.length_append, List.length_cons]
        omega
      simp [covered, this]
    have htail := ih (front ++ [e]) (by rw [List.append_assoc]; exact hl)
    rw [List.length_append, List.length_singleton, ← Nat.add_assoc] at htail
    rw [unacked, hcovered, if_pos rfl, htail]

end Unacked

/-- The envelopes the server has acknowledged. -/
def Flushing.delivered (s : Flushing Envelope) : List Envelope := s.acked.flatMap Prod.snd

/-- The flush of this batch has come past so many envelopes. -/
structure Sending (n : ℕ) (answers : ℕ → Answer) (batch : List Envelope) (passed : ℕ)
    (s : Flushing Envelope) : Prop where
  pending : s.client.pending = []
  within : ∀ c ∈ s.acked, c.1 + c.2.length ≤ passed
  kept : s.client.spooled = unacked s.acked 0 (batch.take passed)
  balance : (s.delivered : Multiset Envelope) + (unacked s.acked 0 (batch.take passed) : List _) =
    (batch.take passed : List _)
  through : s.client.buffer = none → ∀ k, n * k < passed → answers (n * k) ≠ .refused

/-- How many envelopes the flush has come past. -/
def Point.passed (n : ℕ) : Point → ℕ
  | .entered | .taken | .emptied => 0
  | .sending offset => offset
  | .answered offset => offset + n
  | .spooling offset lines => offset + lines

variable {n : ℕ} {answers : ℕ → Answer} {batch : List Envelope} {s : Flushing Envelope} {d i : ℕ}

theorem length_chunkAt_le (n : ℕ) (batch : List Envelope) (i : ℕ) :
    (chunkAt n batch i).length ≤ n := by
  rw [chunkAt, List.length_take]
  exact Nat.min_le_left _ _

theorem take_add_chunkAt (n : ℕ) (batch : List Envelope) (i : ℕ) :
    batch.take (i + n) = batch.take i ++ chunkAt n batch i := List.take_add

namespace Sending

theorem of_client_eq {t : Flushing Envelope} (h : Sending n answers batch d s)
    (hclient : t.client = s.client) (hacked : t.acked = s.acked) : Sending n answers batch d t := by
  obtain ⟨client, acked, point⟩ := t
  cases hclient
  cases hacked
  exact ⟨h.pending, h.within, h.kept, h.balance, h.through⟩

theorem acknowledge (h : Sending n answers batch i s) (hi : i < batch.length)
    (hanswer : answers i ≠ .refused) (hn : n ∣ i) (p : Point) :
    Sending n answers batch (i + n)
      { s with acked := (i, chunkAt n batch i) :: s.acked, point := p } := by
  have hlength : (batch.take i).length = i := by
    rw [List.length_take]
    omega
  have hunacked : unacked ((i, chunkAt n batch i) :: s.acked) 0 (batch.take (i + n)) =
      unacked s.acked 0 (batch.take i) := by
    rw [take_add_chunkAt, unacked_append, hlength, Nat.zero_add, unacked_cons_self, List.append_nil,
      unacked_cons_of_le (by omega)]
  constructor
  · exact h.pending
  · intro c hc
    rcases List.mem_cons.1 hc with rfl | hc
    · have := length_chunkAt_le n batch i
      simp only
      omega
    · exact (h.within c hc).trans (Nat.le_add_right _ _)
  · rw [hunacked]
    exact h.kept
  · rw [hunacked, take_add_chunkAt, ← Multiset.coe_add, ← h.balance, Flushing.delivered,
      List.flatMap_cons, ← Multiset.coe_add, Multiset.add_assoc, Multiset.add_comm]
    rfl
  · intro hnone k hk
    rcases Nat.lt_or_ge (n * k) i with hlt | hge
    · exact h.through hnone k hlt
    · obtain ⟨j, rfl⟩ := hn
      have hkj : k = j := by
        have hpos : 0 < n := Nat.pos_of_ne_zero fun hzero => by simp [hzero] at hk
        have hlt : k < j + 1 := Nat.lt_of_mul_lt_mul_left (a := n) hk
        have hle : j ≤ k := Nat.le_of_mul_le_mul_left hge hpos
        omega
      rw [hkj]
      exact hanswer

/-- One line of the chunk at the offset reached is written back. -/
theorem spool {e : Envelope} (h : Sending n answers batch d s) (he : batch[d]? = some e)
    (hbuffer : s.client.buffer.isSome) (p : Point) :
    Sending n answers batch (d + 1) { s with client := s.client.spool e, point := p } := by
  obtain ⟨hd, hget⟩ := List.getElem?_eq_some_iff.1 he
  have hlength : (batch.take d).length = d := by
    rw [List.length_take]
    omega
  have htake : batch.take (d + 1) = batch.take d ++ [e] := by
    rw [List.take_add_one, he]
    rfl
  have hunacked : unacked s.acked 0 (batch.take (d + 1)) = unacked s.acked 0 (batch.take d) ++ [e] := by
    rw [htake, unacked_append, hlength, Nat.zero_add, unacked_of_le h.within]
  obtain ⟨b, hb⟩ := Option.isSome_iff_exists.1 hbuffer
  constructor
  · exact h.pending
  · intro c hc
    exact (h.within c hc).trans (Nat.le_succ _)
  · have hkept := h.kept
    rw [hunacked, ← hkept]
    simp only [Client.spooled, Client.spool, hb, Option.map_some, OfflineBuffer.envelopes_write]
  · rw [hunacked, htake, ← Multiset.coe_add, ← Multiset.coe_add, ← h.balance,
      Multiset.add_assoc]
    rfl
  · intro hnone
    simp [Client.spool, hb] at hnone

theorem start (hpending : s.client.pending = []) (hacked : s.acked = [])
    (hspooled : s.client.spooled = []) : Sending n answers batch 0 s where
  pending := hpending
  within c hc := by simp [hacked] at hc
  kept := by simp [hspooled, unacked]
  balance := by simp [Flushing.delivered, hacked, unacked]
  through _ _ hk := absurd hk (Nat.not_lt_zero _)

/-- Past the end of the batch there is nothing more. -/
theorem beyond {d' : ℕ} (h : Sending n answers batch d s) (hd : batch.length ≤ d) (hle : d ≤ d')
    (hbuffer : s.client.buffer.isSome) : Sending n answers batch d' s := by
  have htake : batch.take d' = batch.take d := by
    rw [List.take_of_length_le hd, List.take_of_length_le (hd.trans hle)]
  constructor
  · exact h.pending
  · intro c hc
    exact (h.within c hc).trans hle
  · rw [htake]
    exact h.kept
  · rw [htake]
    exact h.balance
  · intro hnone
    simp [hnone] at hbuffer

/-- Without a buffer, all that is passed is acknowledged. -/
theorem delivered_eq (h : Sending n answers batch d s) (hbuffer : s.client.buffer = none) :
    (s.delivered : Multiset Envelope) = (batch.take d : List _) := by
  have hnone : unacked s.acked 0 (batch.take d) = [] := by
    rw [← h.kept]
    simp [Client.spooled, hbuffer]
  rw [← h.balance, hnone, Multiset.coe_nil, Multiset.add_zero]

end Sending

/-- The spool has been read and truncated, or there is none. -/
def Point.underway : Point → Bool
  | .entered | .taken => false
  | _ => true

/-- What holds at every moment of the flush of a client. -/
structure Visits (n : ℕ) (answers : ℕ → Answer) (c : Client Envelope) (t : Flushing Envelope) :
    Prop where
  before : t.point.underway = false → t.acked = [] ∧ t.client.buffer = c.buffer
  during : t.point.underway = true →
    Sending n answers (c.spooled ++ c.pending) (t.point.passed n) t
  buffered : t.client.buffer.isSome = c.buffer.isSome

/-- What holds where the flush of a client raises. -/
def Ends (n : ℕ) (answers : ℕ → Answer) (c : Client Envelope) (e : Raised) (t : Flushing Envelope) :
    Prop :=
  match e with
  | .decodeError => t.point = .taken ∧ t.client = { c with pending := [] } ∧ t.acked = [] ∧
      ∃ b lines, c.buffer = some b ∧ b.file = some lines ∧ lines.mapM id = none
  | .keyError => Visits n answers c t ∧ t.point.underway ∧ ∃ i, answers i = .malformed
  | .transportError => Visits n answers c t ∧ t.point.underway ∧ ∃ i, answers i = .failed
  | .trueFigureError => c.buffer = none ∧ t.client.buffer = none ∧
      ∃ k, n * k < c.pending.length ∧ answers (n * k) = .refused ∧
        (∀ j < k, answers (n * j) ≠ .refused) ∧
        t.client.pending = chunkAt n c.pending (n * k) ∧
        (t.delivered : Multiset Envelope) = (c.pending.take (n * k) : List _)

variable {c : Client Envelope}

theorem meets_takePending (n : ℕ) (answers : ℕ → Answer) (c : Client Envelope) :
    Meets (Visits n answers c) (fun s => s = c.entering) takePending
      (fun pending s => pending = c.pending ∧ s = ⟨{ c with pending := [] }, [], .taken⟩)
      (Ends n answers c) := by
  apply Meets.look
  rintro s rfl
  apply Meets.bind (Q := fun _ s => s = ⟨{ c with pending := [] }, [], .taken⟩)
  · apply Meets.step
    · rintro t rfl
      exact ⟨fun _ => ⟨rfl, rfl⟩, nofun, rfl⟩
    · rintro t rfl
      rfl
  · intro _
    apply Meets.pure
    intro t ht
    exact ⟨rfl, ht⟩

theorem spooled_of_no_file {b : OfflineBuffer Envelope} (h : b.file = none) : b.envelopes = [] := by
  simp [OfflineBuffer.envelopes, h]

theorem spooled_of_file {b : OfflineBuffer Envelope} {lines : List (Option Envelope)}
    {items : List Envelope} (h : b.file = some lines) (hread : lines.mapM id = some items) :
    b.envelopes = items := by
  rw [OfflineBuffer.envelopes, h, Option.getD_some, mapM_id_eq_some.1 hread,
    reduceOption_map_some]

/-- In the loop of a flush that has come past so many envelopes. -/
def Between (n : ℕ) (answers : ℕ → Answer) (c : Client Envelope) (d : ℕ) (s : Flushing Envelope) :
    Prop :=
  Sending n answers (c.spooled ++ c.pending) d s ∧ Visits n answers c s

theorem meets_drain {b : OfflineBuffer Envelope} (hb : c.buffer = some b) :
    Meets (Visits n answers c) (fun s => s = ⟨{ c with pending := [] }, [], .taken⟩) (drain b)
      (fun spooled s => spooled = c.spooled ∧ Between n answers c 0 s) (Ends n answers c) := by
  have hspooled : c.spooled = b.envelopes := by simp [Client.spooled, hb]
  unfold drain
  cases hfile : b.file with
  | none =>
    have hempty := spooled_of_no_file hfile
    apply Meets.pure
    rintro s rfl
    refine ⟨by rw [hspooled, hempty], .start rfl rfl ?_, fun _ => ⟨rfl, rfl⟩, nofun, rfl⟩
    exact hspooled.trans hempty
  | some lines =>
    cases hread : lines.mapM id with
    | none =>
      simp only [hread]
      apply Meets.raise
      rintro s rfl
      exact ⟨rfl, rfl, rfl, b, lines, hb, hfile, hread⟩
    | some items =>
      simp only [hread]
      apply Meets.bind (Q := fun _ s => Between n answers c 0 s)
      · apply Meets.step
        · rintro s rfl
          exact ⟨fun _ => ⟨rfl, rfl⟩, nofun, rfl⟩
        · rintro s rfl
          have hstart : Sending n answers (c.spooled ++ c.pending) 0
              ⟨{ pending := [], buffer := some ⟨some []⟩ }, [], .emptied⟩ := .start rfl rfl rfl
          exact ⟨hstart, nofun, fun _ => hstart, by rw [hb]; rfl⟩
      · intro _
        apply Meets.pure
        intro s hs
        exact ⟨by rw [hspooled, spooled_of_file hfile hread], hs⟩

theorem meets_withSpool (n : ℕ) (answers : ℕ → Answer) (c : Client Envelope) :
    Meets (Visits n answers c) (fun s => s = ⟨{ c with pending := [] }, [], .taken⟩)
      (withSpool c.pending)
      (fun batch s => batch = c.spooled ++ c.pending ∧ Between n answers c 0 s)
      (Ends n answers c) := by
  apply Meets.look
  rintro s rfl
  cases hb : c.buffer with
  | none =>
    have hspooled : c.spooled = [] := by simp [Client.spooled, hb]
    apply Meets.pure
    rintro s rfl
    refine ⟨by rw [hspooled]; rfl, .start rfl rfl rfl, fun _ => ⟨rfl, hb.symm⟩, nofun, ?_⟩
    rw [hb]
  | some b =>
    apply Meets.bind (Q := fun spooled s => spooled = c.spooled ∧ Between n answers c 0 s)
    · have hdrain := @meets_drain _ n answers c b hb
      rw [hb] at hdrain
      exact hdrain
    · intro spooled
      apply Meets.pure
      rintro s ⟨rfl, hs⟩
      exact ⟨rfl, hs⟩

/-- A step of the loop leads from one moment of the flush to another. -/
theorem Between.of_sending {t : Flushing Envelope} (hs : Visits n answers c s)
    (ht : Sending n answers (c.spooled ++ c.pending) d t) (hunder : t.point.underway)
    (hpassed : t.point.passed n = d) (hbuffer : t.client.buffer.isSome = s.client.buffer.isSome) :
    Between n answers c d t := by
  refine ⟨ht, ?_, ?_, hbuffer.trans hs.buffered⟩
  · rw [hunder]
    exact nofun
  · intro _
    rw [hpassed]
    exact ht

theorem meets_append {i : ℕ} : Meets (Visits n answers c)
    (fun s => Between n answers c i s ∧ s.client.buffer.isSome)
    (append i (chunkAt n (c.spooled ++ c.pending) i))
    (fun _ s => Between n answers c (i + n) s) (Ends n answers c) := by
  have hloop : Meets (Visits n answers c)
      (fun s => Between n answers c (i + 0) s ∧ s.client.buffer.isSome)
      (append i (chunkAt n (c.spooled ++ c.pending) i))
      (fun _ s => Between n answers c (i + (chunkAt n (c.spooled ++ c.pending) i).zipIdx.length) s ∧
        s.client.buffer.isSome) (Ends n answers c) := by
    apply Meets.forM (J := fun k s => Between n answers c (i + k) s ∧ s.client.buffer.isSome)
    intro k x hx
    rw [List.getElem?_zipIdx, Option.map_eq_some_iff] at hx
    obtain ⟨e, he, rfl⟩ := hx
    have hk : k < n := by
      have := (List.getElem?_eq_some_iff.1 he).1
      exact this.trans_le (length_chunkAt_le _ _ _)
    have hbatch : (c.spooled ++ c.pending)[i + k]? = some e := by
      rw [chunkAt, List.getElem?_take_of_lt hk, List.getElem?_drop] at he
      exact he
    apply Meets.step
    · rintro s ⟨⟨-, hvisits⟩, -⟩
      exact hvisits
    · rintro s ⟨⟨hsending, hvisits⟩, hbuffer⟩
      have hsame : (s.client.spool e).buffer.isSome = s.client.buffer.isSome := by
        simp [Client.spool]
      refine ⟨?_, hsame.trans hbuffer⟩
      refine .of_sending hvisits (hsending.spool hbatch hbuffer _) rfl ?_ hsame
      simp only [Point.passed]
      omega
  apply hloop.mono
  · exact fun s hs => hs
  · rintro _ s ⟨⟨hsending, hvisits⟩, hbuffer⟩
    rw [List.length_zipIdx, chunkAt, List.length_take, List.length_drop] at hsending
    refine ⟨?_, hvisits⟩
    rcases Nat.le_total n ((c.spooled ++ c.pending).length - i) with hle | hle
    · rw [Nat.min_eq_left hle] at hsending
      exact hsending
    · rw [Nat.min_eq_right hle] at hsending
      exact hsending.beyond (by omega) (by omega) hbuffer
  · exact fun _ _ h => h

theorem meets_sendChunk {k : ℕ} (hn : 0 < n) (hk : n * k < (c.spooled ++ c.pending).length) :
    Meets (Visits n answers c) (Between n answers c (n * k))
      (sendChunk n answers (c.spooled ++ c.pending) (n * k))
      (fun _ s => Between n answers c (n * k + n) s) (Ends n answers c) := by
  -- the state once the chunk is sent and acknowledged
  have hacked : answers (n * k) ≠ .refused → ∀ s, Between n answers c (n * k) s →
      Between n answers c (n * k + n) { s with
        acked := (n * k, chunkAt n (c.spooled ++ c.pending) (n * k)) :: s.acked,
        point := .answered (n * k) } := by
    rintro hanswer s ⟨hsending, hvisits⟩
    exact .of_sending hvisits (hsending.acknowledge hk hanswer (Nat.dvd_mul_right _ _) _) rfl rfl rfl
  apply Meets.bind (Q := fun _ s => Between n answers c (n * k) s ∧ s.point = .sending (n * k))
  · apply Meets.step
    · exact fun s hs => hs.2
    · rintro s ⟨hsending, hvisits⟩
      exact ⟨.of_sending hvisits (hsending.of_client_eq rfl rfl) rfl rfl rfl, rfl⟩
  · intro _
    cases hanswer : answers (n * k) with
    | acknowledged =>
      apply Meets.step
      · exact fun s hs => hs.1.2
      · exact fun s hs => hacked (by simp [hanswer]) s hs.1
    | malformed =>
      apply Meets.bind (Q := fun _ s => Between n answers c (n * k + n) s ∧ s.point.underway)
      · apply Meets.step
        · exact fun s hs => hs.1.2
        · exact fun s hs => ⟨hacked (by simp [hanswer]) s hs.1, rfl⟩
      · intro _
        apply Meets.raise
        exact fun s hs => ⟨hs.1.2, hs.2, _, hanswer⟩
    | failed =>
      apply Meets.raise
      rintro s ⟨⟨-, hvisits⟩, hpoint⟩
      refine ⟨hvisits, ?_, _, hanswer⟩
      rw [hpoint]
      rfl
    | refused =>
      apply Meets.look
      rintro s ⟨hs, hpoint⟩
      cases hbuffer : s.client.buffer with
      | some b =>
        apply meets_append.mono
        · rintro t rfl
          exact ⟨hs, by rw [hbuffer]; rfl⟩
        · exact fun _ _ h => h
        · exact fun _ _ h => h
      | none =>
        have hnone : c.buffer = none := by
          rw [← Option.isNone_iff_eq_none, ← Option.not_isSome, ← hs.2.buffered, hbuffer]
          rfl
        have hspooled : c.spooled = [] := by simp [Client.spooled, hnone]
        have hsending := hs.1
        rw [hspooled, List.nil_append] at hk hsending
        apply Meets.bind (Q := fun _ t => Ends n answers c .trueFigureError t)
        · apply Meets.step
          · rintro t rfl
            exact hs.2
          · rintro t rfl
            have hearlier : ∀ j < k, answers (n * j) ≠ .refused := by
              intro j hj
              exact hsending.through hbuffer j (Nat.mul_lt_mul_of_pos_left hj hn)
            refine ⟨hnone, hbuffer, k, hk, hanswer, hearlier, ?_, hsending.delivered_eq hbuffer⟩
            simp only [hspooled, List.nil_append, hsending.pending, List.append_nil]
        · intro _
          exact Meets.raise fun _ h => h

theorem meets_flush (hn : 0 < n) (answers : ℕ → Answer) (c : Client Envelope) :
    Meets (Visits n answers c) (fun s => s = c.entering) (flush n answers)
      (fun _ s => Visits n answers c s ∧ ∃ d, (c.spooled ++ c.pending).length ≤ d ∧
        Sending n answers (c.spooled ++ c.pending) d s) (Ends n answers c) := by
  apply (meets_takePending n answers c).bind
  intro pending
  apply Meets.lift
  rintro rfl
  apply (meets_withSpool n answers c).bind
  intro batch
  apply Meets.lift
  rintro rfl
  have hloop : Meets (Visits n answers c) (Between n answers c (n * 0))
      ((chunkOffsets n (c.spooled ++ c.pending).length).forM
        (sendChunk n answers (c.spooled ++ c.pending)))
      (fun _ => Between n answers c (n * (chunkOffsets n (c.spooled ++ c.pending).length).length))
      (Ends n answers c) := by
    apply Meets.forM (J := fun k => Between n answers c (n * k))
    intro k i hi
    obtain ⟨rfl, hlt⟩ := chunkOffsets_getElem? hi
    exact meets_sendChunk hn hlt
  apply hloop.mono
  · exact fun s hs => hs
  · rintro _ s ⟨hsending, hvisits⟩
    exact ⟨hvisits, _, le_mul_length_chunkOffsets hn _, hsending⟩
  · exact fun _ _ h => h

end TrueFigure.Sdk
