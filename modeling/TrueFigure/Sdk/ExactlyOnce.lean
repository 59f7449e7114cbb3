import TrueFigure.Sdk.NoLoss
import TrueFigure.Sdk.Transport
import TrueFigure.Server.Resubmission

/-!
# Events end to end

The queue of the client, the request loop, a network that loses requests and answers, and
the server behind it. `_request` repeats what may have been stored and the spool sends it
again; every event that is answered has one row all the same.
-/
namespace TrueFigure.Sdk

open TrueFigure.Library Interruptible TrueFigure.Python TrueFigure.Server

/-- An event that is read back as it is written. -/
abbrev Tracked (rt : Runtime) : Type := {e : Json // Writable rt e}

/-- An attempt to post a chunk under a production key of the workspace. -/
structure Passage (ws : ℕ) where
  principal : Principal
  sourceRef : PyStr
  now : ℕ
  clock : ℕ → ℕ
  /-- What the server does besides, before the attempt. -/
  background : Background
  /-- The error in the place of the endpoint's answer, where the request does not get there. -/
  refusal : Option {a : Server.Answer (List EventResult) // (Response.ofAnswer a).succeeded = false}
  delivery : Delivery
  workspace : principal.workspaceId = ws
  production : principal.isTest = false
  sourceRef_ok : textOk sourceRef = true

/-- What becomes of each attempt of each request of a flush, by offset and attempt. -/
abbrev Passages (ws : ℕ) : Type := ℕ → ℕ → Passage ws

def Passage.request {ws : ℕ} (p : Passage ws) (body : ByteArray) : LaneRequest where
  principal := p.principal
  sourceRef := p.sourceRef
  now := p.now
  clock := p.clock
  body := body
  sourceRef_ok := p.sourceRef_ok

/-- How a request looks to `flush`. -/
def flushAnswer : Except ClientError (Response (List EventResult)) → Answer
  | .ok r => if r.data.isSome then .acknowledged else .malformed
  | .error .unreachable | .error .noData => .failed
  | .error (.rateLimited _) | .error (.trueFigure _) => .refused

/-- `flush` goes on to the next chunk. -/
def goesOn (buffered : Bool) : Answer → Bool
  | .acknowledged => true
  | .refused => buffered
  | _ => false

/-- The batch of a flush, unless the spool cannot be read. -/
def Client.batch? {Envelope : Type} (c : Client Envelope) : Option (List Envelope) :=
  match c.buffer with
  | none => some c.pending
  | some b => ((b.file.getD []).mapM id).map (· ++ c.pending)

section Relay

variable (monthOf : ℤ → ℤ) (env : Env) (rt : Runtime) {ws : ℕ}

/-- The body that `flush` posts. -/
def eventsBody (chunk : List (Tracked rt)) : ByteArray :=
  uploadOf (jsonDumps rt (.obj [(py "events", .arr (chunk.map Subtype.val))]))

/-- The requests of a flush: their answers by offset, the results and the world after them. -/
structure Exchanged where
  answers : ℕ → Answer
  results : List (Tracked rt × EventResult)
  world : LaneWorld

/-- A client and the server. -/
structure Relay where
  client : Client (Tracked rt)
  world : LaneWorld
  /-- The results of all flushes, each with its event. -/
  results : List (Tracked rt × EventResult)
  given : List (Tracked rt)

/-- A call of `track` or `flush`, with what becomes of the requests if it flushes. -/
inductive RelayCall (ws : ℕ)
  | track (e : Tracked rt) (passages : Passages ws)
  | flush (passages : Passages ws)

variable {rt}

def RelayCall.passages : RelayCall rt ws → Passages ws
  | .track _ passages => passages
  | .flush passages => passages

/-- No attempt ends in an exception of the transport. -/
def RelayCall.Delivers (call : RelayCall rt ws) : Prop :=
  ∀ i k, (call.passages i k).delivery ≠ .lost

def Passage.serve (p : Passage ws) (chunk : List (Tracked rt)) (w : LaneWorld) :
    Server.Answer (List EventResult) × LaneWorld :=
  match p.refusal with
  | some refusal => (refusal.1, p.background.1 w)
  | none => postEvents monthOf env (p.request (eventsBody rt chunk)) (p.background.1 w)

/-- `_request("POST", "/v1/events:batch", …)`. -/
def postChunk (maxRetries : ℕ) (passages : ℕ → Passage ws) (chunk : List (Tracked rt))
    (w : LaneWorld) : Except ClientError (Response (List EventResult)) × LaneWorld :=
  requestLoop (fun k => (passages k).serve monthOf env chunk) (fun k => (passages k).delivery)
    maxRetries 1 w

/-- `env["data"]["results"]`, each with its event. -/
def chunkResults (chunk : List (Tracked rt)) :
    Except ClientError (Response (List EventResult)) → List (Tracked rt × EventResult)
  | .ok r => chunk.zip (r.data.getD [])
  | .error _ => []

/-- The requests of the loop of `flush` at these offsets. -/
def exchange (n maxRetries : ℕ) (passages : Passages ws) (buffered : Bool)
    (batch : List (Tracked rt)) : List ℕ → LaneWorld → Exchanged rt
  | [], w => ⟨fun _ => .refused, [], w⟩
  | i :: offsets, w =>
    let r := postChunk monthOf env maxRetries (passages i) (chunkAt n batch i) w
    let results := chunkResults (chunkAt n batch i) r.1
    if goesOn buffered (flushAnswer r.1) then
      let rest := exchange n maxRetries passages buffered batch offsets r.2
      ⟨Function.update rest.answers i (flushAnswer r.1), results ++ rest.results, rest.world⟩
    else ⟨Function.update (fun _ => .refused) i (flushAnswer r.1), results, r.2⟩

/-- A client before its first call. -/
def Client.relay (c : Client (Tracked rt)) (w : LaneWorld) : Relay rt :=
  ⟨c, w, [], c.spooled ++ c.pending⟩

namespace Relay

def flush (n maxRetries : ℕ) (r : Relay rt) (passages : Passages ws) : Relay rt :=
  let batch := r.client.batch?.getD []
  let x := exchange monthOf env n maxRetries passages r.client.buffer.isSome batch
    (chunkOffsets n batch.length) r.world
  { r with
    client := ((Sdk.flush n x.answers).run r.client.entering).final.client
    world := x.world
    results := r.results ++ x.results }

/-- `self._pending.append(envelope)` -/
def push (r : Relay rt) (e : Tracked rt) : Relay rt :=
  { r with client := { r.client with pending := r.client.pending ++ [e] }, given := r.given ++ [e] }

def enqueue (n maxRetries : ℕ) (r : Relay rt) (e : Tracked rt) (passages : Passages ws) :
    Relay rt :=
  if n ≤ (r.push e).client.pending.length then
    (r.push e).flush monthOf env n maxRetries passages
  else r.push e

def perform (n maxRetries : ℕ) (r : Relay rt) : RelayCall rt ws → Relay rt
  | .track e passages => r.enqueue monthOf env n maxRetries e passages
  | .flush passages => r.flush monthOf env n maxRetries passages

/-- The client and the server after these calls, whether they return or raise. -/
def after (n maxRetries : ℕ) (r : Relay rt) (calls : List (RelayCall rt ws)) : Relay rt :=
  calls.foldl (perform monthOf env n maxRetries) r

/-- Every event that was answered has its result and, unless it is rejected, one row. -/
def Answered (ws : ℕ) (r : Relay rt) : Prop :=
  ∀ x ∈ r.results, x.2.status = .rejected ∨ ∃ fields key, x.1.1 = .obj fields ∧
    (KeyArgs.ofEnvelope fields).key env.rt env.digest = .ok key ∧ x.2.eventKey = some key ∧
      ∃! at', (r.world.rows.1.lookup (.event ws key at')).isSome

/-- Every event given was answered once, or is still in the queue. -/
def Accounted (r : Relay rt) : Prop :=
  (r.given : Multiset (Tracked rt)) = (r.results.map Prod.fst : List _) +
    ((r.client.pending : Multiset (Tracked rt)) + (r.client.spooled : List _))

end Relay

end Relay

/-! ### The server's side -/

section Server

variable {monthOf : ℤ → ℤ} {env : Env} {rt : Runtime} {ws n maxRetries : ℕ} {w : LaneWorld}
  {chunk batch : List (Tracked rt)} {passages : Passages ws} {buffered : Bool}

/-- The server reads the events the client wrote, or none. -/
theorem batchEvents_eventsBody (hrt : rt.Sound) {events : List Json}
    (h : batchEvents jsonLoads (eventsBody rt chunk) = .ok events) : events = chunk.map Subtype.val := by
  have hchunk : Writable rt (.arr (chunk.map Subtype.val)) := by
    apply Writable.arr
    intro e he
    obtain ⟨x, -, rfl⟩ := List.mem_map.1 he
    exact x.2
  have hbody : Writable rt (.obj [(py "events", .arr (chunk.map Subtype.val))]) := by
    apply Writable.obj
    · exact List.nodup_singleton (py "events")
    · intro f hf
      rw [List.mem_singleton.1 hf]
      rfl
    · intro f hf
      rw [List.mem_singleton.1 hf]
      exact hchunk
  have htext : utf8Decode (eventsBody rt chunk) =
      .ok (jsonDumps rt (.obj [(py "events", .arr (chunk.map Subtype.val))])) :=
    utf8Decode_uploadOf (hbody.utf8Encodable hrt)
  have hfield : Dict.getD (Json.obj [(py "events", .arr (chunk.map Subtype.val))]).dictOrEmpty
      (py "events") .null = .arr (chunk.map Subtype.val) := by
    simp [Json.dictOrEmpty, Dict.getD, Dict.get?]
  unfold batchEvents at h
  by_cases hlarge : maxBodyBytes < (eventsBody rt chunk).size
  · rw [if_pos hlarge] at h
    cases h
  · rw [if_neg hlarge] at h
    by_cases hempty : (eventsBody rt chunk).size = 0
    · have hloads : jsonLoads (py "\x7b\x7d") = .ok (.obj []) := rfl
      rw [if_pos hempty] at h
      simp only [Except.mapError, bind, Except.bind, hloads] at h
      cases h
    · rw [if_neg hempty, htext] at h
      simp only [Except.mapError, bind, Except.bind, jsonLoads_jsonDumps hbody, hfield] at h
      split_ifs at h
      exact (Except.ok.inj h).symm

theorem serve_repeatable (p : Passage ws) (h : EventsOk w.rows) :
    EventsOk (p.serve monthOf env chunk w).2.rows ∧
      KeysKept w.rows.1 (p.serve monthOf env chunk w).2.rows.1 := by
  obtain ⟨hok, hkept⟩ := p.background.2 w h
  unfold Passage.serve
  split
  · exact ⟨hok, hkept⟩
  · obtain ⟨hok', hkept'⟩ := @ingestRequest_repeatable env monthOf
      (p.request (eventsBody rt chunk)) _ hok
    exact ⟨hok', hkept.trans hkept'⟩

/-- Only results are answered without an error. -/
theorem answer_succeeded {o : Outcome} (h : (Response.ofAnswer o.answer).succeeded = true) :
    ∃ rs, o = .results rs ∧ (Response.ofAnswer o.answer).data = some rs := by
  have hfailure : ∀ e : Failure, (Response.ofAnswer
      (e.answer : Server.Answer (List EventResult))).succeeded = false := by
    intro e
    unfold Failure.answer
    split <;> simp [Response.succeeded, Response.ofAnswer]
  cases o with
  | results rs => exact ⟨rs, rfl, rfl⟩
  | raised e => cases (hfailure e).symm.trans h
  | counts | imported | roster => cases (hfailure _).symm.trans h

theorem serve_onRecord (hrt : rt.Sound) (p : Passage ws) (h : EventsOk w.rows)
    (hsucceeded : (Response.ofAnswer (p.serve monthOf env chunk w).1).succeeded = true) :
    ∃ rs, (Response.ofAnswer (p.serve monthOf env chunk w).1).data = some rs ∧
      List.Forall₂ (fun e (r : EventResult) =>
        OnRecord env ws (p.serve monthOf env chunk w).2.rows.1 e.1 r.toVerdict) chunk rs := by
  obtain ⟨hok, -⟩ := p.background.2 w h
  unfold Passage.serve at hsucceeded ⊢
  split
  · rename_i refusal hrefusal
    rw [hrefusal] at hsucceeded
    cases refusal.2.symm.trans hsucceeded
  · rename_i hrefusal
    rw [hrefusal] at hsucceeded
    obtain ⟨rs, hresults, hdata⟩ := answer_succeeded hsucceeded
    refine ⟨rs, hdata, ?_⟩
    obtain ⟨events, hevents, hrecord⟩ := ingestRequest_onRecord hok p.production hresults
    rw [batchEvents_eventsBody hrt hevents, List.forall₂_map_left_iff] at hrecord
    have hws : (p.request (eventsBody rt chunk)).principal.workspaceId = ws := p.workspace
    rwa [hws] at hrecord

/-- However often a request is repeated and whatever becomes of its answers. -/
theorem postChunk_repeatable (passages : ℕ → Passage ws) (h : EventsOk w.rows) :
    EventsOk (postChunk monthOf env maxRetries passages chunk w).2.rows ∧
      KeysKept w.rows.1 (postChunk monthOf env maxRetries passages chunk w).2.rows.1 := by
  unfold postChunk
  apply @requestLoop_invariant _ _ _ _ _ _ _
    (fun v : LaneWorld => EventsOk v.rows ∧ KeysKept w.rows.1 v.rows.1)
  · exact ⟨h, .refl _⟩
  · rintro k v ⟨hok, hkept⟩
    obtain ⟨hok', hkept'⟩ := serve_repeatable (passages k) hok
    exact ⟨hok', hkept.trans hkept'⟩

theorem postChunk_onRecord (hrt : rt.Sound) {passages : ℕ → Passage ws} (h : EventsOk w.rows)
    {r : Response (List EventResult)} {w' : LaneWorld}
    (hr : postChunk monthOf env maxRetries passages chunk w = (.ok r, w')) :
    ∃ rs, r.data = some rs ∧ List.Forall₂ (fun e (r : EventResult) =>
      OnRecord env ws w'.rows.1 e.1 r.toVerdict) chunk rs := by
  obtain ⟨k, before, hok, hserved, rfl, hsucceeded⟩ := @requestLoop_ok _ _ _ _ _ _ _ _
    (fun v : LaneWorld => EventsOk v.rows) h (fun k v hv => (serve_repeatable (passages k) hv).1) _ hr
  obtain ⟨rs, hdata, hrecord⟩ := serve_onRecord hrt (passages k) hok hsucceeded
  rw [hserved] at hrecord
  exact ⟨rs, hdata, hrecord⟩

theorem chunkResults_onRecord (hrt : rt.Sound) {passages : ℕ → Passage ws} (h : EventsOk w.rows) :
    ∀ x ∈ chunkResults chunk (postChunk monthOf env maxRetries passages chunk w).1,
      OnRecord env ws (postChunk monthOf env maxRetries passages chunk w).2.rows.1 x.1.1
        x.2.toVerdict := by
  cases hr : postChunk monthOf env maxRetries passages chunk w with
  | mk result w' =>
    cases result with
    | error e => exact fun x hx => absurd hx List.not_mem_nil
    | ok r =>
      obtain ⟨rs, hdata, hrecord⟩ := postChunk_onRecord hrt h hr
      intro x hx
      rw [chunkResults, hdata] at hx
      exact (List.forall₂_iff_zip.1 hrecord).2 hx

theorem map_chunkResults (hrt : rt.Sound) {passages : ℕ → Passage ws} (h : EventsOk w.rows) :
    (chunkResults chunk (postChunk monthOf env maxRetries passages chunk w).1).map Prod.fst =
      if flushAnswer (postChunk monthOf env maxRetries passages chunk w).1 = .acknowledged
        then chunk else [] := by
  cases hr : postChunk monthOf env maxRetries passages chunk w with
  | mk result w' =>
    cases result with
    | error e => cases e <;> rfl
    | ok r =>
      obtain ⟨rs, hdata, hrecord⟩ := postChunk_onRecord hrt h hr
      have hlength : chunk.length ≤ rs.length := hrecord.length_eq.le
      simp only [chunkResults, flushAnswer, hdata, Option.getD_some, Option.isSome_some, if_true]
      exact List.map_fst_zip hlength

/-- What the requests of a flush leave is sound, and their results are on record. -/
theorem exchange_onRecord (hrt : rt.Sound) (h : EventsOk w.rows) (offsets : List ℕ) :
    let x := exchange monthOf env n maxRetries passages buffered batch offsets w
    EventsOk x.world.rows ∧ KeysKept w.rows.1 x.world.rows.1 ∧
      ∀ y ∈ x.results, OnRecord env ws x.world.rows.1 y.1.1 y.2.toVerdict := by
  induction offsets generalizing w with
  | nil => exact ⟨h, .refl _, fun _ hy => absurd hy List.not_mem_nil⟩
  | cons i offsets ih =>
    obtain ⟨hok, hkept⟩ := @postChunk_repeatable monthOf env rt ws maxRetries w (chunkAt n batch i)
      (passages i) h
    have hrecord := @chunkResults_onRecord monthOf env rt ws maxRetries w (chunkAt n batch i) hrt
      (passages i) h
    unfold exchange
    dsimp only
    split_ifs
    · obtain ⟨hok', hkept', hrecord'⟩ := ih hok
      refine ⟨hok', hkept.trans hkept', fun y hy => ?_⟩
      rcases List.mem_append.1 hy with hy | hy
      · exact (hrecord y hy).mono hkept'
      · exact hrecord' y hy
    · exact ⟨hok, hkept, hrecord⟩

end Server

/-! ### The client's side -/

section Queue

variable {Envelope : Type} {n : ℕ} {answers answers' : ℕ → Answer} {batch : List Envelope}
  {buffered : Bool} {offsets : List ℕ} {s : Flushing Envelope}

/-- The offsets whose chunks a flush sees acknowledged, if it comes to these offsets. -/
def ackedOf (buffered : Bool) (answers : ℕ → Answer) : List ℕ → List ℕ
  | [] => []
  | i :: offsets =>
    let rest := if goesOn buffered (answers i) then ackedOf buffered answers offsets else []
    if answers i = .acknowledged ∨ answers i = .malformed then i :: rest else rest

theorem ackedOf_congr (h : ∀ i ∈ offsets, answers i = answers' i) :
    ackedOf buffered answers offsets = ackedOf buffered answers' offsets := by
  induction offsets with
  | nil => rfl
  | cons i offsets ih =>
    rw [ackedOf, ackedOf, h i List.mem_cons_self, ih fun j hj => h j (List.mem_cons_of_mem _ hj)]

/-- An offset's own answer, before the later ones. -/
theorem ackedOf_update {i : ℕ} (h : i ∉ offsets) (a : Answer) :
    ackedOf buffered (Function.update answers i a) (i :: offsets) =
      (if a = .acknowledged ∨ a = .malformed then [i] else []) ++
        if goesOn buffered a then ackedOf buffered answers offsets else [] := by
  have hlater : ∀ j ∈ offsets, Function.update answers i a j = answers j := by
    intro j hj
    apply Function.update_of_ne
    rintro rfl
    exact h hj
  rw [ackedOf, Function.update_self, ackedOf_congr hlater]
  split_ifs <;> rfl

/-- The client has a buffer whose spool can be read. -/
def Client.Spools (c : Client Envelope) : Prop := ∃ b, c.buffer = some b ∧ b.Readable

theorem OfflineBuffer.Readable.write {b : OfflineBuffer Envelope} (h : b.Readable) (e : Envelope) :
    (b.write e).Readable := by
  unfold OfflineBuffer.Readable OfflineBuffer.write
  rw [Option.getD_some, List.mem_append]
  rintro (hmem | hmem)
  · exact h hmem
  · cases List.mem_singleton.1 hmem

/-- What a step that only appends to the spool leaves. -/
structure Appends (s t : Flushing Envelope) : Prop where
  acked : t.acked = s.acked
  buffered : t.client.buffer.isSome = s.client.buffer.isSome
  spools : s.client.Spools → t.client.Spools

theorem appends_append (s : Flushing Envelope) (offset : ℕ) (chunk : List Envelope) :
    ((append offset chunk).run s).outcome = .ok () ∧
      Appends s ((append offset chunk).run s).final := by
  apply forM_step_keeps (P := Appends s)
  · rintro x t ⟨hacked, hbuffered, hspools⟩
    refine ⟨hacked, ?_, fun hs => ?_⟩
    · rw [← hbuffered]
      simp [Client.spool]
    · obtain ⟨b, hb, hread⟩ := hspools hs
      exact ⟨b.write x.1, by simp [Client.spool, hb], hread.write x.1⟩
  · exact ⟨rfl, rfl, id⟩

/-- What a flush has done at the end of these offsets. -/
structure Sends (n : ℕ) (batch : List Envelope) (sent : List ℕ) (s t : Flushing Envelope) : Prop
    where
  acked : t.acked = (sent.map fun i => (i, chunkAt n batch i)).reverse ++ s.acked
  buffered : t.client.buffer.isSome = s.client.buffer.isSome
  spools : s.client.Spools → t.client.Spools

theorem sends_sendChunk (n : ℕ) (answers : ℕ → Answer) (batch : List Envelope) (i : ℕ)
    (s : Flushing Envelope) :
    ((sendChunk n answers batch i).run s).outcome.isOk = goesOn s.client.buffer.isSome (answers i) ∧
      Sends n batch (if answers i = .acknowledged ∨ answers i = .malformed then [i] else []) s
        ((sendChunk n answers batch i).run s).final := by
  unfold sendChunk
  rw [outcome_bind_ok (a := ()) rfl, final_bind_ok (a := ()) rfl]
  cases hanswer : answers i with
  | acknowledged => exact ⟨rfl, rfl, rfl, id⟩
  | malformed => exact ⟨rfl, rfl, rfl, id⟩
  | failed => exact ⟨rfl, rfl, rfl, id⟩
  | refused =>
    obtain ⟨⟨pending, buffer⟩, acked, point⟩ := s
    cases buffer with
    | none =>
      refine ⟨rfl, rfl, rfl, ?_⟩
      rintro ⟨b, hb, -⟩
      cases hb
    | some b =>
      obtain ⟨houtcome, hacked, hbuffered, hspools⟩ := appends_append
        ⟨⟨pending, some b⟩, acked, .sending i⟩ i (chunkAt n batch i)
      exact ⟨congrArg Except.isOk houtcome, hacked, hbuffered, hspools⟩

theorem sends_forM (n : ℕ) (answers : ℕ → Answer) (batch : List Envelope) (offsets : List ℕ)
    (s : Flushing Envelope) :
    Sends n batch (ackedOf s.client.buffer.isSome answers offsets) s
      ((offsets.forM (sendChunk n answers batch)).run s).final := by
  induction offsets generalizing s with
  | nil => exact ⟨rfl, rfl, id⟩
  | cons i offsets ih =>
    obtain ⟨houtcome, hfirst⟩ := sends_sendChunk n answers batch i s
    rw [forM_cons, ackedOf]
    cases hgoes : goesOn s.client.buffer.isSome (answers i) with
    | false =>
      cases hrun : ((sendChunk n answers batch i).run s).outcome with
      | ok a =>
        rw [hrun, hgoes] at houtcome
        cases houtcome
      | error e =>
        rw [final_bind_error hrun]
        exact hfirst
    | true =>
      cases hrun : ((sendChunk n answers batch i).run s).outcome with
      | error e =>
        rw [hrun, hgoes] at houtcome
        cases houtcome
      | ok a =>
        rw [final_bind_ok hrun]
        have hrest := ih ((sendChunk n answers batch i).run s).final
        rw [hfirst.buffered] at hrest
        refine ⟨?_, hrest.buffered.trans hfirst.buffered, fun hs => hrest.spools (hfirst.spools hs)⟩
        rw [hrest.acked, hfirst.acked, if_pos rfl]
        split_ifs <;> simp

theorem run_withSpool {lines : List (Option Envelope)} {items pending : List Envelope}
    (hitems : lines.mapM id = some items) :
    ((withSpool pending).run ⟨⟨[], some ⟨some lines⟩⟩, [], .taken⟩).outcome =
        .ok (items ++ pending) ∧
      ((withSpool pending).run ⟨⟨[], some ⟨some lines⟩⟩, [], .taken⟩).final =
        ⟨⟨[], some ⟨some []⟩⟩, [], .emptied⟩ := by
  have hdrain : drain (⟨some lines⟩ : OfflineBuffer Envelope) = (do
      step fun t => { t with client := { t.client with buffer := some ⟨some []⟩ }, point := .emptied }
      pure items) := by
    unfold drain
    simp only [hitems]
  unfold withSpool
  simp only [run, Bind.bind, look, hdrain, step, Pure.pure]
  exact ⟨trivial, trivial⟩

theorem sends_flush (n : ℕ) (answers : ℕ → Answer) {c : Client Envelope}
    (h : c.batch? = some batch) :
    Sends n batch (ackedOf c.buffer.isSome answers (chunkOffsets n batch.length)) c.entering
      ((flush n answers).run c.entering).final := by
  obtain ⟨pending, buffer⟩ := c
  cases buffer with
  | none =>
    obtain rfl := Option.some.inj h
    obtain ⟨hacked, hbuffered, hspools⟩ := sends_forM n answers pending
      (chunkOffsets n pending.length) ⟨⟨[], none⟩, [], .taken⟩
    exact ⟨hacked, hbuffered, hspools⟩
  | some b =>
    obtain ⟨items, hitems, rfl⟩ := Option.map_eq_some_iff.1 h
    obtain ⟨file⟩ := b
    cases file with
    | none =>
      obtain rfl : items = [] := by cases hitems; rfl
      obtain ⟨hacked, hbuffered, hspools⟩ := sends_forM n answers pending
        (chunkOffsets n pending.length) ⟨⟨[], some ⟨none⟩⟩, [], .taken⟩
      exact ⟨hacked, hbuffered, hspools⟩
    | some lines =>
      obtain ⟨houtcome, hfinal⟩ := @run_withSpool _ _ _ pending hitems
      obtain ⟨hacked, hbuffered, hspools⟩ := sends_forM n answers (items ++ pending)
        (chunkOffsets n (items ++ pending).length) ⟨⟨[], some ⟨some []⟩⟩, [], .emptied⟩
      have hflush : ((flush n answers).run
          (Client.entering ⟨pending, some ⟨some lines⟩⟩)).final =
          (((chunkOffsets n (items ++ pending).length).forM
            (sendChunk n answers (items ++ pending))).run
              ⟨⟨[], some ⟨some []⟩⟩, [], .emptied⟩).final := by
        unfold flush
        rw [final_bind_ok (a := pending) rfl]
        exact (final_bind_ok houtcome).trans (by rw [hfinal])
      rw [hflush]
      refine ⟨hacked, hbuffered, fun _ => hspools ⟨⟨some []⟩, rfl, ?_⟩⟩
      exact List.not_mem_nil

theorem delivered_flush (n : ℕ) (answers : ℕ → Answer) {c : Client Envelope}
    (h : c.batch? = some batch) :
    (((flush n answers).run c.entering).final.delivered : Multiset Envelope) =
      ((ackedOf c.buffer.isSome answers (chunkOffsets n batch.length)).flatMap (chunkAt n batch) :
        List Envelope) := by
  have hacked := (sends_flush n answers h).acked
  rw [Flushing.delivered, hacked, Multiset.coe_eq_coe]
  simp only [Client.entering, List.append_nil]
  apply ((List.reverse_perm _).flatMap_right _).trans
  rw [List.flatMap_map]

theorem nodup_chunkOffsets {n : ℕ} (hn : 0 < n) (length : ℕ) : (chunkOffsets n length).Nodup := by
  exact List.nodup_range' n hn

end Queue

/-! ### Both sides -/

section Both

variable {monthOf : ℤ → ℤ} {env : Env} {rt : Runtime} {ws n maxRetries : ℕ} {w : LaneWorld}
  {chunk batch : List (Tracked rt)} {passages : Passages ws} {buffered : Bool} {offsets : List ℕ}

/-- A request over a transport that raises nothing returns or raises for its last answer. -/
theorem requestLoop_answered {σ α : Type} {serve : ℕ → σ → Server.Answer α × σ}
    {network : ℕ → Delivery} {left attempt : ℕ} {s : σ} (h : ∀ k, network k ≠ .lost) :
    ∃ r, (requestLoop serve network left attempt s).1 = .ok r ∨
      (requestLoop serve network left attempt s).1 = .error r.failure := by
  have hdeliver : ∀ k (a : Server.Answer α), ∃ r, (network k).deliver a = some r := by
    intro k a
    cases hk : network k with
    | lost => exact absurd hk (h k)
    | intact | replaced => exact ⟨_, rfl⟩
  induction left generalizing attempt s with
  | zero =>
    obtain ⟨r, hr⟩ := hdeliver attempt (serve attempt s).1
    refine ⟨r, ?_⟩
    unfold requestLoop
    simp only [hr]
    split_ifs
    · exact .inl rfl
    · exact .inr rfl
    · exact .inr rfl
  | succ left ih =>
    obtain ⟨r, hr⟩ := hdeliver attempt (serve attempt s).1
    unfold requestLoop
    simp only [hr]
    split_ifs
    · exact ⟨r, .inl rfl⟩
    · exact ih
    · exact ⟨r, .inr rfl⟩

theorem flushAnswer_failure (r : Response (List EventResult)) :
    flushAnswer (.error r.failure) = .refused := by
  unfold Response.failure
  split_ifs <;> rfl

theorem flushAnswer_ne_malformed (hrt : rt.Sound) {passages : ℕ → Passage ws}
    (h : EventsOk w.rows) :
    flushAnswer (postChunk monthOf env maxRetries passages chunk w).1 ≠ .malformed := by
  cases hr : postChunk monthOf env maxRetries passages chunk w with
  | mk result w' =>
    cases result with
    | error e => cases e <;> simp [flushAnswer]
    | ok r =>
      obtain ⟨rs, hdata, -⟩ := postChunk_onRecord hrt h hr
      simp [flushAnswer, hdata]

theorem postChunk_prompt (hrt : rt.Sound) {passages : ℕ → Passage ws} (h : EventsOk w.rows)
    (hdelivers : ∀ k, (passages k).delivery ≠ .lost) :
    flushAnswer (postChunk monthOf env maxRetries passages chunk w).1 = .acknowledged ∨
      flushAnswer (postChunk monthOf env maxRetries passages chunk w).1 = .refused := by
  have hne := @flushAnswer_ne_malformed monthOf env rt ws maxRetries w chunk hrt passages h
  obtain ⟨r, hr | hr⟩ := @requestLoop_answered _ _ (fun k => (passages k).serve monthOf env chunk)
    (fun k => (passages k).delivery) maxRetries 1 w hdelivers
  · have hr : (postChunk monthOf env maxRetries passages chunk w).1 = .ok r := hr
    rw [hr] at hne ⊢
    by_cases hdata : r.data.isSome
    · exact .inl (if_pos hdata)
    · exact absurd (if_neg hdata) hne
  · have hr : (postChunk monthOf env maxRetries passages chunk w).1 = .error r.failure := hr
    rw [hr]
    exact .inr (flushAnswer_failure r)

/-- The results of a flush are those of the chunks it sees acknowledged. -/
theorem map_exchange (hrt : rt.Sound) (h : EventsOk w.rows) (hoffsets : offsets.Nodup) :
    let x := exchange monthOf env n maxRetries passages buffered batch offsets w
    x.results.map Prod.fst = (ackedOf buffered x.answers offsets).flatMap (chunkAt n batch) := by
  induction offsets generalizing w with
  | nil => rfl
  | cons i offsets ih =>
    obtain ⟨hnew, hrest⟩ := List.nodup_cons.1 hoffsets
    have hne := @flushAnswer_ne_malformed monthOf env rt ws maxRetries w (chunkAt n batch i) hrt
      (passages i) h
    have hmap := @map_chunkResults monthOf env rt ws maxRetries w (chunkAt n batch i) hrt
      (passages i) h
    have hnext := ih (@postChunk_repeatable monthOf env rt ws maxRetries w (chunkAt n batch i)
      (passages i) h).1 hrest
    unfold exchange
    dsimp only
    split_ifs with hgoes
    · dsimp only
      rw [List.map_append, hmap, hnext, ackedOf_update hnew, if_pos hgoes, List.flatMap_append]
      simp only [hne, or_false]
      split_ifs <;> simp
    · dsimp only
      rw [hmap, ackedOf_update hnew, if_neg hgoes, List.append_nil]
      simp only [hne, or_false]
      split_ifs <;> simp

/-- Where the transport raises nothing, every chunk is acknowledged or refused. -/
theorem exchange_prompt (hrt : rt.Sound) (h : EventsOk w.rows)
    (hdelivers : ∀ i k, (passages i k).delivery ≠ .lost) (offsets : List ℕ) :
    ∃ accepts, (exchange monthOf env n maxRetries passages buffered batch offsets w).answers =
      prompt accepts := by
  have hrefused : (fun _ => Answer.refused) = prompt fun _ => false := rfl
  -- one more answer, after those of the later chunks
  have hupdate : ∀ (accepts : ℕ → Bool) (i : ℕ) (a : Answer), a = .acknowledged ∨ a = .refused →
      ∃ accepts', Function.update (prompt accepts) i a = prompt accepts' := by
    intro accepts i a ha
    refine ⟨Function.update accepts i (a = .acknowledged), funext fun j => ?_⟩
    by_cases hj : j = i
    · subst hj
      rcases ha with rfl | rfl <;> simp [prompt]
    · simp [prompt, Function.update_of_ne hj]
  induction offsets generalizing w with
  | nil => exact ⟨_, hrefused⟩
  | cons i offsets ih =>
    have hanswer := @postChunk_prompt monthOf env rt ws maxRetries w (chunkAt n batch i) hrt
      (passages i) h (hdelivers i)
    have hok := (@postChunk_repeatable monthOf env rt ws maxRetries w (chunkAt n batch i)
      (passages i) h).1
    unfold exchange
    dsimp only
    split_ifs
    · obtain ⟨accepts, haccepts⟩ := ih hok
      dsimp only
      rw [haccepts]
      exact hupdate accepts i _ hanswer
    · dsimp only
      rw [hrefused]
      exact hupdate _ i _ hanswer

theorem Client.Spools.batch_eq {Envelope : Type} {c : Client Envelope} (h : c.Spools) :
    c.batch? = some (c.spooled ++ c.pending) := by
  obtain ⟨b, hb, hread⟩ := h
  have hitems : (b.file.getD []).mapM id = some (b.file.getD []).reduceOption :=
    mapM_id_eq_some.2 (map_some_reduceOption hread).symm
  simp only [Client.batch?, Client.spooled, hb, hitems, Option.map_some, OfflineBuffer.envelopes]

namespace Relay

variable {r : Relay rt}

/-- What the client has been told is so. -/
def Sound (env : Env) (ws : ℕ) (r : Relay rt) : Prop :=
  EventsOk r.world.rows ∧ ∀ x ∈ r.results, OnRecord env ws r.world.rows.1 x.1.1 x.2.toVerdict

theorem Sound.flush (hrt : rt.Sound) (h : r.Sound env ws) (passages : Passages ws) :
    (r.flush monthOf env n maxRetries passages).Sound env ws := by
  obtain ⟨hok, hkept, hrecord⟩ := @exchange_onRecord monthOf env rt ws n maxRetries r.world
    (r.client.batch?.getD []) passages r.client.buffer.isSome hrt h.1
    (chunkOffsets n (r.client.batch?.getD []).length)
  refine ⟨hok, fun x hx => ?_⟩
  rcases List.mem_append.1 hx with hx | hx
  · exact (h.2 x hx).mono hkept
  · exact hrecord x hx

theorem Sound.perform (hrt : rt.Sound) (h : r.Sound env ws) (call : RelayCall rt ws) :
    (r.perform monthOf env n maxRetries call).Sound env ws := by
  cases call with
  | flush passages => exact h.flush hrt passages
  | track e passages =>
    rw [Relay.perform, Relay.enqueue]
    split_ifs
    · exact @Sound.flush monthOf env rt ws n maxRetries (r.push e) hrt h passages
    · exact h

/-- A flush that a raising transport does not cut short loses nothing. -/
theorem accounted_flush (hrt : rt.Sound) (hn : 0 < n) (hok : EventsOk r.world.rows)
    (hspools : r.client.Spools) (h : r.Accounted)
    (hdelivers : ∀ i k, (passages i k).delivery ≠ .lost) :
    (r.flush monthOf env n maxRetries passages).client.Spools ∧
      (r.flush monthOf env n maxRetries passages).Accounted := by
  have hbatch := hspools.batch_eq
  obtain ⟨b, hb, hread⟩ := hspools
  obtain ⟨accepts, haccepts⟩ := @exchange_prompt monthOf env rt ws n maxRetries r.world
    (r.client.spooled ++ r.client.pending) passages r.client.buffer.isSome hrt hok hdelivers
    (chunkOffsets n (r.client.spooled ++ r.client.pending).length)
  have hmap := @map_exchange monthOf env rt ws n maxRetries r.world
    (r.client.spooled ++ r.client.pending) passages r.client.buffer.isSome
    (chunkOffsets n (r.client.spooled ++ r.client.pending).length) hrt hok (nodup_chunkOffsets hn _)
  have hbalanced := (@balanced_iff_readable _ n accepts r.client hn b hb).2 (.inl hread)
  have hspooling := (sends_flush n (prompt accepts) hbatch).spools ⟨b, hb, hread⟩
  dsimp only at hmap
  rw [haccepts] at hmap
  unfold Balanced at hbalanced
  rw [delivered_flush n (prompt accepts) hbatch, ← hmap] at hbalanced
  unfold Relay.flush
  rw [hbatch, Option.getD_some]
  dsimp only
  rw [haccepts]
  refine ⟨hspooling, ?_⟩
  unfold Accounted at h ⊢
  have hqueue : (r.client.pending : Multiset (Tracked rt)) +
      (r.client.spooled : Multiset (Tracked rt)) =
      ((r.client.spooled ++ r.client.pending : List (Tracked rt)) : Multiset (Tracked rt)) := by
    rw [← Multiset.coe_add]
    exact add_comm _ _
  rw [h, List.map_append, ← Multiset.coe_add, add_assoc, ← hbalanced, hqueue]

theorem accounted_perform (hrt : rt.Sound) (hn : 0 < n) (hok : EventsOk r.world.rows)
    (hspools : r.client.Spools) (h : r.Accounted) {call : RelayCall rt ws}
    (hdelivers : call.Delivers) :
    (r.perform monthOf env n maxRetries call).client.Spools ∧
      (r.perform monthOf env n maxRetries call).Accounted := by
  cases call with
  | flush passages => exact accounted_flush hrt hn hok hspools h hdelivers
  | track e passages =>
    have hpushed : (r.push e).Accounted := by
      have hspooled : (r.push e).client.spooled = r.client.spooled := rfl
      unfold Accounted at h ⊢
      rw [hspooled]
      simp only [push, ← Multiset.coe_add]
      rw [h, add_assoc, add_assoc, add_comm (r.client.spooled : Multiset (Tracked rt)), add_assoc]
    rw [Relay.perform, Relay.enqueue]
    split_ifs
    · exact @accounted_flush monthOf env rt ws n maxRetries passages (r.push e) hrt hn hok hspools
        hpushed hdelivers
    · exact ⟨hspools, hpushed⟩

theorem Sound.answered (h : r.Sound env ws) : r.Answered env ws := by
  intro x hx
  rcases h.2 x hx with hrejected | ⟨fields, key, hevent, hkey, htold, hstored⟩
  · exact .inl hrejected
  · exact .inr ⟨fields, key, hevent, hkey, htold, h.1.existsUnique hstored⟩

theorem sound_after (hrt : rt.Sound) (h : r.Sound env ws) (calls : List (RelayCall rt ws)) :
    (r.after monthOf env n maxRetries calls).Sound env ws := by
  induction calls generalizing r with
  | nil => exact h
  | cons call calls ih => exact ih (h.perform hrt call)

theorem accounted_after (hrt : rt.Sound) (hn : 0 < n) (hsound : r.Sound env ws)
    (hspools : r.client.Spools) (h : r.Accounted) {calls : List (RelayCall rt ws)}
    (hdelivers : ∀ call ∈ calls, call.Delivers) :
    (r.after monthOf env n maxRetries calls).Accounted := by
  induction calls generalizing r with
  | nil => exact h
  | cons call calls ih =>
    obtain ⟨hcall, hcalls⟩ := List.forall_mem_cons.1 hdelivers
    obtain ⟨hspools', haccounted⟩ :=
      @accounted_perform monthOf env rt ws n maxRetries r hrt hn hsound.1 hspools h call hcall
    exact ih (hsound.perform hrt call) hspools' haccounted hcalls

end Relay

end Both

/-! ### An answer that comes too late -/

/-- Whatever the chunk, a gateway answers 504 in place of the first answer. -/
def slowAnswer : Passages 1 := fun _ k =>
  { principal := sampleIntake.principal
    sourceRef := []
    now := sampleNow
    clock := fun _ => sampleNow
    background := ⟨id, fun _ h => ⟨h, .refl _⟩⟩
    refusal := none
    delivery := if k = 1 then .replaced 504 [] (by decide) else .intact
    workspace := rfl
    production := rfl
    sourceRef_ok := textOk_nil }

def spooling : Client (Tracked asciiRuntime) := ⟨[], some ⟨none⟩⟩

theorem eventsOk_meterLanes : EventsOk (meterLanes 0).rows where
  ahead := sequenceAhead_oneImport _ _
  once ws key a b ha _ := by
    have hnone : (meterLanes 0).rows.1.lookup (.event ws key a) = none :=
      AList.lookup_insert_ne (by simp)
    rw [hnone] at ha
    cases ha

end TrueFigure.Sdk
