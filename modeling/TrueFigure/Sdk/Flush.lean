import Mathlib.Data.Nat.Init
import Mathlib.Data.List.ReduceOption
import TrueFigure.Library.Interruptible

/-!
# The event queue of the client

`_pending`, the spool of `OfflineBuffer` and `flush`, step by step. An envelope is
opaque: `json.dumps` and `json.loads` give it back.
-/
namespace TrueFigure.Sdk

open TrueFigure.Library Interruptible

/-- How a `_request` ends for `flush`: with a usable envelope, with one that lacks
`meta` or `data`, in `TrueFigureError` or in any other exception. -/
inductive Answer
  | acknowledged
  | malformed
  | refused
  | failed
  deriving DecidableEq

/-- What `flush` raises. -/
inductive Raised
  | trueFigureError
  | keyError
  | decodeError
  | transportError
  deriving DecidableEq

variable {Envelope : Type}

/-- The file of an `OfflineBuffer`, if there is one, by its lines that are not
blank; `json.loads` refuses a line that is `none`. -/
structure OfflineBuffer (Envelope : Type) where
  file : Option (List (Option Envelope))
  deriving DecidableEq

structure Client (Envelope : Type) where
  pending : List Envelope
  buffer : Option (OfflineBuffer Envelope)
  deriving DecidableEq

def OfflineBuffer.envelopes (b : OfflineBuffer Envelope) : List Envelope :=
  (b.file.getD []).reduceOption

def Client.spooled (c : Client Envelope) : List Envelope :=
  match c.buffer with
  | some b => b.envelopes
  | none => []

/-- One line of `append`. -/
def OfflineBuffer.write (b : OfflineBuffer Envelope) (e : Envelope) : OfflineBuffer Envelope :=
  ⟨some (b.file.getD [] ++ [some e])⟩

def Client.spool (c : Client Envelope) (e : Envelope) : Client Envelope :=
  { c with buffer := c.buffer.map (·.write e) }

/-- Where `flush` stands: which statement is done last, for which chunk. -/
inductive Point
  | entered
  /-- `batch, self._pending = self._pending, []` -/
  | taken
  /-- `open(self.path, "w").close()` -/
  | emptied
  /-- the loop has come to the chunk at this offset -/
  | sending (offset : ℕ)
  /-- the server has acknowledged the chunk at this offset -/
  | answered (offset : ℕ)
  /-- so many lines of the chunk at this offset are appended to the spool -/
  | spooling (offset lines : ℕ)
  deriving DecidableEq

/-- A client inside `flush`, with the chunks acknowledged so far and their offsets. -/
structure Flushing (Envelope : Type) where
  client : Client Envelope
  acked : List (ℕ × List Envelope)
  point : Point
  deriving DecidableEq

/-- A client that enters `flush`. -/
def Client.entering (c : Client Envelope) : Flushing Envelope := ⟨c, [], .entered⟩

abbrev Flow (Envelope α : Type) : Type := Interruptible (Flushing Envelope) Raised α

def takePending : Flow Envelope (List Envelope) := do
  let s ← look
  step fun t => { t with client := { t.client with pending := [] }, point := .taken }
  pure s.client.pending

/-- `OfflineBuffer.drain`: the file is read whole before it is truncated. -/
def drain (b : OfflineBuffer Envelope) : Flow Envelope (List Envelope) :=
  match b.file with
  | none => pure []
  | some lines =>
    match lines.mapM id with
    | none => raise .decodeError
    | some items => do
      step fun t => { t with client := { t.client with buffer := some ⟨some []⟩ }, point := .emptied }
      pure items

/-- `OfflineBuffer.append`. -/
def append (offset : ℕ) (chunk : List Envelope) : Flow Envelope Unit :=
  chunk.zipIdx.forM fun x => step fun t =>
    { t with client := t.client.spool x.1, point := .spooling offset (x.2 + 1) }

def acknowledge (offset : ℕ) (chunk : List Envelope) : Flow Envelope Unit :=
  step fun t => { t with acked := (offset, chunk) :: t.acked, point := .answered offset }

/-- `batch[i:i + self.MAX_BATCH]` -/
def chunkAt (n : ℕ) (batch : List Envelope) (offset : ℕ) : List Envelope :=
  (batch.drop offset).take n

/-- One pass of the loop of `flush`. -/
def sendChunk (n : ℕ) (answers : ℕ → Answer) (batch : List Envelope) (offset : ℕ) :
    Flow Envelope Unit := do
  step fun t => { t with point := .sending offset }
  match answers offset with
  | .acknowledged => acknowledge offset (chunkAt n batch offset)
  | .malformed => do
    acknowledge offset (chunkAt n batch offset)
    raise .keyError
  | .failed => raise .transportError
  | .refused => do
    let s ← look
    match s.client.buffer with
    | some _ => append offset (chunkAt n batch offset)
    | none => do
      step fun t =>
        { t with client := { t.client with pending := chunkAt n batch offset ++ t.client.pending } }
      raise .trueFigureError

/-- `range(0, len(batch), self.MAX_BATCH)` -/
def chunkOffsets (n length : ℕ) : List ℕ := List.range' 0 ((length + n - 1) / n) n

/-- `if self.buffer: batch = self.buffer.drain() + batch` -/
def withSpool (pending : List Envelope) : Flow Envelope (List Envelope) := do
  let s ← look
  match s.client.buffer with
  | some b => do
    let spooled ← drain b
    pure (spooled ++ pending)
  | none => pure pending

/-- `flush`, where the chunk at an offset gets this answer. -/
def flush (n : ℕ) (answers : ℕ → Answer) : Flow Envelope Unit := do
  let pending ← takePending
  let batch ← withSpool pending
  (chunkOffsets n batch.length).forM (sendChunk n answers batch)

theorem mapM_id_eq_some {lines : List (Option Envelope)} {items : List Envelope} :
    lines.mapM id = some items ↔ lines = items.map some := by
  induction lines generalizing items with
  | nil =>
    cases items with
    | nil => simp
    | cons e items => simp
  | cons line lines ih =>
    cases items with
    | nil => simp [List.mapM_cons, Option.bind_eq_some_iff]
    | cons e items =>
      simp only [List.mapM_cons, id_eq, List.map_cons, List.cons.injEq]
      cases line with
      | none => simp
      | some d =>
        cases hlines : lines.mapM id with
        | none =>
          have : lines ≠ items.map some := fun h => by simp [ih.2 h] at hlines
          simp [this]
        | some rest =>
          have hrest := ih.1 hlines
          subst hrest
          simp [List.map_inj_right]

theorem reduceOption_map_some (items : List Envelope) : (items.map some).reduceOption = items := by
  induction items with
  | nil => rfl
  | cons e items ih => rw [List.map_cons, List.reduceOption_cons_of_some, ih]

@[simp]
theorem OfflineBuffer.envelopes_write (b : OfflineBuffer Envelope) (e : Envelope) :
    (b.write e).envelopes = b.envelopes ++ [e] := by
  simp [OfflineBuffer.envelopes, OfflineBuffer.write, List.reduceOption_append]

theorem chunkOffsets_getElem? {n length k i : ℕ} (h : (chunkOffsets n length)[k]? = some i) :
    i = n * k ∧ i < length := by
  obtain ⟨hk, hi⟩ := List.getElem?_eq_some_iff.1 h
  simp only [chunkOffsets, List.length_range', List.getElem_range', Nat.zero_add] at hk hi
  have hn : 0 < n := Nat.pos_of_ne_zero fun hn => by simp [hn] at hk
  have hle : n * k + n ≤ length + n - 1 := by
    have := (Nat.le_div_iff_mul_le hn).1 hk
    rwa [Nat.succ_mul, Nat.mul_comm k] at this
  constructor
  · exact hi.symm
  · omega

theorem le_mul_length_chunkOffsets {n : ℕ} (hn : 0 < n) (length : ℕ) :
    length ≤ n * (chunkOffsets n length).length := by
  rw [chunkOffsets, List.length_range']
  have := Nat.div_add_mod (length + n - 1) n
  have := Nat.mod_lt (length + n - 1) hn
  omega

end TrueFigure.Sdk
