import TrueFigure.Python.JsonScan
import TrueFigure.Server.ImportEnding

/-!
# The lines of an upload

The loop of `run_import` takes the lines of `str.splitlines`, which knows more line
boundaries than NDJSON: the next line and the two Unicode separators may stand raw
in a JSON string. So the loop sees the texts that were joined exactly when none of
them holds such a character, and it hands on their values exactly when the decoder
reads them all.
-/
namespace TrueFigure.Server

open TrueFigure.Library TrueFigure.Python

/-- What the loop counts as received, line by line, with what it decodes. -/
def decodedLines (loads : Decoder) (raw : PyStr) : List (Except LoadsError Json) :=
  ((splitlines raw).filter (!blank ·)).map loads

/-- The values the loop hands to `_process_one`, up to the first that raises. -/
def handedEvents (loads : Decoder) (env : Env) (intake : Intake) (clock : ℕ → ℕ) :
    List (ℕ × PyStr) → Db × ℕ → List Json
  | [], _ => []
  | (lineNo, line) :: lines, st =>
    if blank line then handedEvents loads env intake clock lines st
    else
      match loads line with
      | .error .decode => handedEvents loads env intake clock lines st
      | .error .digits => []
      | .error .recursion => []
      | .ok event =>
        event :: match processAlone env intake lineNo ⟨event, clock lineNo⟩ st with
          | (.ok _, st') => handedEvents loads env intake clock lines st'
          | (.error _, _) => []

/-- The JSON texts of an upload: its lines that are not blank. -/
def textsOf (lines : List PyStr) : List PyStr := lines.filter (!blank ·)

/-- The texts have these values. Uploaded, the lines are one received line a text, and the
values go to `_process_one`, in order, all of them where the call returns. -/
structure FramedAs (loads : Decoder) (lines : List PyStr) (values : List Json) : Prop where
  read : (textsOf lines).map loads = values.map .ok
  decoded : decodedLines loads (joinLines lines) = (textsOf lines).map loads
  handed : ∀ env clock importRef w job data, SequenceAhead w.rows →
    w.job? importRef = some job → w.get uploadBucket job.uploadPath = some data →
      utf8Encode (joinLines lines) = .ok data →
        handedEvents loads env (w.intake job) clock (numberedLines (joinLines lines)) w.rows <+:
            values ∧
          ∀ counts, (runImportJob loads env clock importRef w).1 = .ok counts →
            counts.received = (textsOf lines).length ∧
              handedEvents loads env (w.intake job) clock (numberedLines (joinLines lines)) w.rows =
                values

def Framed (loads : Decoder) (lines : List PyStr) : Prop :=
  ∃ values, FramedAs loads lines values

variable {loads : Decoder} {env : Env} {intake : Intake} {clock : ℕ → ℕ} {st : Db × ℕ}

/-! ### Pieces -/

theorem pieces_pos {lines : List PyStr} :
    (textsOf lines).length ≤
      (lines.flatMap fun s => (piecesFrom [] s).filter (!blank ·)).length := by
  induction lines with
  | nil => exact le_rfl
  | cons s lines ih =>
    rw [textsOf, List.filter_cons, List.flatMap_cons, List.length_append]
    cases hs : blank s with
    | true => exact ih.trans (Nat.le_add_left _ _)
    | false =>
      have hpos := piecesFrom_pos hs
      simp only [Bool.not_false, if_true, List.length_cons]
      have : (textsOf lines).length = (lines.filter (!blank ·)).length := rfl
      omega

theorem piece_of_texts {lines : List PyStr}
    (h : (lines.flatMap fun s => (piecesFrom [] s).filter (!blank ·)).length =
      (textsOf lines).length) :
    ∀ s ∈ lines, blank s = false → ((piecesFrom [] s).filter (!blank ·)).length ≤ 1 := by
  induction lines with
  | nil => exact fun s hs => absurd hs List.not_mem_nil
  | cons s lines ih =>
    have hrest := @pieces_pos lines
    rw [List.flatMap_cons, List.length_append, textsOf, List.filter_cons] at h
    have hdef : (textsOf lines).length = (lines.filter (!blank ·)).length := rfl
    cases hs : blank s with
    | true =>
      rw [hs, piecesFrom_blank rfl hs] at h
      simp only [Bool.not_true, Bool.false_eq_true, if_false, List.length_nil, zero_add] at h
      refine List.forall_mem_cons.2 ⟨fun hfalse => ?_, ih h⟩
      rw [hs] at hfalse
      cases hfalse
    | false =>
      have hpos := piecesFrom_pos hs
      simp only [hs, Bool.not_false, if_true, List.length_cons] at h
      refine List.forall_mem_cons.2 ⟨fun _ => by omega, ih (by omega)⟩

theorem isJsonSpace_of_boundary {c : CodePoint} (h : isLineBoundary c = true) (hfeed : c ≠ 0x0A)
    (hreturn : c ≠ 0x0D) : isJsonSpace c = false := by
  simp only [isLineBoundary, Bool.or_eq_true, Bool.and_eq_true, decide_eq_true_eq] at h
  have hfeed' : c.val ≠ 0x0A := fun hval => hfeed (Fin.ext hval)
  have hreturn' : c.val ≠ 0x0D := fun hval => hreturn (Fin.ext hval)
  simp only [isJsonSpace, Bool.or_eq_false_iff, decide_eq_false_iff_not]
  omega

/-- A JSON text with a line boundary in it is in two pieces at least. -/
theorem two_pieces {s : PyStr} {v : Json} {c : CodePoint} (hs : OneLine s)
    (hloads : jsonLoads s = .ok v) (hc : c ∈ s) (hboundary : isLineBoundary c = true) :
    2 ≤ ((piecesFrom [] s).filter (!blank ·)).length := by
  obtain ⟨a, b, rfl⟩ := List.append_of_mem hc
  obtain ⟨hfeed, hreturn⟩ := hs c hc
  obtain ⟨ha, hb⟩ := jsonLoads_inside hloads (isSpace_of_isLineBoundary hboundary)
    (isJsonSpace_of_boundary hboundary hfeed hreturn)
  have hbefore := piecesFrom_pos (blank_eq_false_iff.2 ha)
  have hafter := piecesFrom_pos (blank_eq_false_iff.2 hb)
  rw [piecesFrom_break hboundary, List.filter_append, List.length_append]
  omega

/-- The loop sees the texts exactly when none holds a line boundary. -/
theorem decodedLines_iff {lines : List PyStr} (hlines : ∀ s ∈ lines, OneLine s)
    (htexts : ∀ s ∈ lines, blank s = false → ∃ v, jsonLoads s = .ok v) :
    decodedLines loads (joinLines lines) = (textsOf lines).map loads ↔
      ∀ s ∈ lines, blank s = false → ∀ c ∈ s, isLineBoundary c = false := by
  rw [decodedLines, splitlines_joinLines hlines]
  constructor
  · intro h s hs hblank c hc
    by_contra hboundary
    have hlength := congrArg List.length h
    rw [List.length_map, List.length_map] at hlength
    have hone := piece_of_texts hlength s hs hblank
    obtain ⟨v, hv⟩ := htexts s hs hblank
    have htwo := two_pieces (hlines s hs) hv hc (by simpa using hboundary)
    omega
  · intro h
    congr 1
    induction lines with
    | nil => rfl
    | cons s lines ih =>
      obtain ⟨hunbroken, hrest⟩ := List.forall_mem_cons.1 h
      rw [List.flatMap_cons, textsOf, List.filter_cons,
        ih (fun t ht => hlines t (List.mem_cons_of_mem _ ht))
          (fun t ht => htexts t (List.mem_cons_of_mem _ ht)) hrest]
      cases hs : blank s with
      | true =>
        rw [piecesFrom_blank rfl hs]
        rfl
      | false =>
        rw [piecesFrom_unbroken (hunbroken hs)]
        simp [hs, textsOf]

/-! ### The loop -/

/-- A value for each line that is not blank is handed on, up to the first that raises. -/
theorem importLines_hands {lines : List (ℕ × PyStr)} {values : List Json}
    (h : (lines.filter fun l => !blank l.2).map (fun l => loads l.2) = values.map .ok)
    (p : ImportProgress) :
    handedEvents loads env intake clock lines st <+: values ∧
      ∀ p', (importLines loads env intake clock lines p st).1 = .ok p' →
        p'.counts.received = p.counts.received + values.length ∧
          handedEvents loads env intake clock lines st = values := by
  induction lines generalizing values p st with
  | nil =>
    obtain rfl : values = [] := by simpa using h.symm
    refine ⟨List.prefix_rfl, fun p' hp => ⟨?_, rfl⟩⟩
    rw [← Except.ok.inj hp]
    rfl
  | cons numbered lines ih =>
    obtain ⟨lineNo, line⟩ := numbered
    rw [List.filter_cons] at h
    rw [handedEvents, importLines]
    cases hblank : blank line with
    | true =>
      rw [hblank] at h
      exact ih h p
    | false =>
      simp only [hblank, Bool.not_false, if_true, List.map_cons] at h
      cases values with
      | nil => cases h
      | cons value values =>
        rw [List.map_cons] at h
        obtain ⟨hloads, hrest⟩ := List.cons.inj h
        simp only [Bool.false_eq_true, if_false, hloads]
        rcases processAlone env intake lineNo ⟨value, clock lineNo⟩ st with ⟨r, st'⟩
        cases r with
        | error e =>
          refine ⟨?_, fun p' hp => by cases hp⟩
          exact (List.prefix_cons_inj value).2 (List.nil_prefix)
        | ok r =>
          obtain ⟨hhands, hall⟩ : handedEvents loads env intake clock lines st' <+: values ∧ _ :=
            ih hrest (p.record env lineNo r)
          refine ⟨(List.prefix_cons_inj value).2 hhands, fun p' hp => ?_⟩
          obtain ⟨hreceived, hhanded⟩ := hall p' hp
          have hcount : (p.record env lineNo r).counts.received = p.counts.received + 1 := by
            unfold ImportProgress.record ImportCounts.count
            cases r.status <;> rfl
          refine ⟨?_, congrArg (value :: ·) hhanded⟩
          rw [hreceived, hcount, List.length_cons]
          omega

theorem decodedLines_numbered (raw : PyStr) :
    ((numberedLines raw).filter fun l => !blank l.2).map (fun l => loads l.2) =
      decodedLines loads raw := by
  have hsnd : (numberedLines raw).map Prod.snd = splitlines raw := by
    simp only [numberedLines, List.map_map]
    exact List.zipIdx_map_fst 0 _
  rw [decodedLines, ← hsnd, List.filter_map, List.map_map]
  rfl

/-- A call that returns has been through its lines. -/
theorem runImportJob_counts {importRef : PyStr} {w : ImportWorld} {job : ImportJobRow}
    {data : ByteArray} {raw : PyStr} {counts : ImportCounts} (hjob : w.job? importRef = some job)
    (hupload : w.get uploadBucket job.uploadPath = some data) (hraw : utf8Decode data = .ok raw)
    (h : (runImportJob loads env clock importRef w).1 = .ok counts) :
    ∃ p, (importLines loads env (w.intake job) clock (numberedLines raw) .start w.rows).1 = .ok p ∧
      p.counts = counts := by
  simp only [runImportJob, hjob, hupload, hraw] at h
  split at h
  · cases h
  · rename_i p rows hloop
    refine ⟨p, by rw [hloop], ?_⟩
    simp only [finishImport] at h
    split at h
    · exact Except.ok.inj h
    · split at h
      · cases h
      · exact Except.ok.inj h

theorem FramedAs.of_decoded {lines : List PyStr} {values : List Json}
    (hvalues : (textsOf lines).map loads = values.map .ok)
    (hdecoded : decodedLines loads (joinLines lines) = (textsOf lines).map loads) :
    FramedAs loads lines values := by
  refine ⟨hvalues, hdecoded, fun env clock importRef w job data hseq hjob hupload hdata => ?_⟩
  have hnumbered : ((numberedLines (joinLines lines)).filter fun l => !blank l.2).map
      (fun l => loads l.2) = values.map .ok := by
    rw [decodedLines_numbered, hdecoded, hvalues]
  obtain ⟨hhands, hall⟩ :=
    @importLines_hands loads env (w.intake job) clock w.rows _ _ hnumbered .start
  refine ⟨hhands, fun counts hcounts => ?_⟩
  obtain ⟨p, hp, rfl⟩ := runImportJob_counts hjob hupload (utf8Decode_encode hdata) hcounts
  obtain ⟨hreceived, hhanded⟩ := hall p hp
  have hlength : values.length = (textsOf lines).length := by
    have := congrArg List.length hvalues
    rw [List.length_map, List.length_map] at this
    exact this.symm
  refine ⟨?_, hhanded⟩
  rw [hreceived, hlength]
  exact Nat.zero_add _

theorem exists_values {texts : List PyStr} (h : ∀ s ∈ texts, ∃ v, loads s = .ok v) :
    ∃ values : List Json, texts.map loads = values.map .ok := by
  induction texts with
  | nil => exact ⟨[], rfl⟩
  | cons s texts ih =>
    obtain ⟨⟨v, hv⟩, hrest⟩ := List.forall_mem_cons.1 h
    obtain ⟨values, hvalues⟩ := ih hrest
    exact ⟨v :: values, by rw [List.map_cons, List.map_cons, hv, hvalues]⟩

/-- Uploaded, the JSON texts among these lines are framed exactly when none of them
holds a line boundary of Unicode, is nested deeper than the stack allows or holds an
integer of more than 4300 digits. -/
theorem framed_iff {room : ℕ} {lines : List PyStr} (hlines : ∀ s ∈ lines, OneLine s)
    (htexts : ∀ s ∈ textsOf lines, jsonLoadsWithin room s ≠ .error .decode) :
    Framed (jsonLoadsWithin room) lines ↔ ∀ s ∈ textsOf lines,
      (∀ c ∈ s, isLineBoundary c = false) ∧ nesting s ≤ room ∧ jsonLoads s ≠ .error .digits := by
  have hread : (∀ s ∈ textsOf lines, nesting s ≤ room ∧ jsonLoads s ≠ .error .digits) ↔
      ∀ s ∈ textsOf lines, ∃ v, jsonLoadsWithin room s = .ok v :=
    forall₂_congr fun s hs => (jsonLoadsWithin_ok_iff (htexts s hs)).symm
  have hplain : (∀ s ∈ textsOf lines, ∃ v, jsonLoadsWithin room s = .ok v) →
      ∀ s ∈ lines, blank s = false → ∃ v, jsonLoads s = .ok v := by
    intro h s hs hblank
    obtain ⟨v, hv⟩ := h s (List.mem_filter.2 ⟨hs, by simp [hblank]⟩)
    exact ⟨v, (jsonLoadsWithin_eq_ok.1 hv).2⟩
  have htextsOf : ∀ {P : PyStr → Prop}, (∀ s ∈ textsOf lines, P s) ↔
      ∀ s ∈ lines, blank s = false → P s := by
    intro P
    simp only [textsOf, List.mem_filter, Bool.not_eq_true', and_imp]
  rw [forall₂_and, hread, htextsOf (P := fun s => ∀ c ∈ s, isLineBoundary c = false)]
  constructor
  · rintro ⟨values, h⟩
    have hall : ∀ s ∈ textsOf lines, ∃ v, jsonLoadsWithin room s = .ok v := by
      intro s hs
      have hmem : jsonLoadsWithin room s ∈ (textsOf lines).map (jsonLoadsWithin room) :=
        List.mem_map_of_mem hs
      rw [h.read] at hmem
      obtain ⟨v, -, hv⟩ := List.mem_map.1 hmem
      exact ⟨v, hv.symm⟩
    exact ⟨(decodedLines_iff hlines (hplain hall)).1 h.decoded, hall⟩
  · rintro ⟨hunbroken, hall⟩
    obtain ⟨values, hvalues⟩ := exists_values hall
    exact ⟨values, .of_decoded hvalues ((decodedLines_iff hlines (hplain hall)).2 hunbroken)⟩

/-- A text of an event's shape with this character in a string. -/
def noteText (c : CodePoint) : PyStr := py "\x7b\"note\": \"a" ++ [c] ++ py "b\"\x7d"

/-- The text is read as an object of one such string. -/
def readsNote (text note : PyStr) : Bool :=
  match jsonLoads text with
  | .ok (.obj [(key, .str s)]) => key = py "note" && s = note
  | _ => false

theorem jsonLoads_of_readsNote {text note : PyStr} (h : readsNote text note = true) :
    jsonLoads text = .ok (.obj [(py "note", .str note)]) := by
  unfold readsNote at h
  split at h
  · rename_i hloads
    simp only [Bool.and_eq_true, decide_eq_true_eq] at h
    rw [hloads, h.1, h.2]
  · cases h

theorem framed_iff_plain : Framed (jsonLoadsWithin 900) [noteText 0x20, []] := by
  have hplain : ([noteText 0x20, []].all fun s => s.all fun c => !isLineBoundary c) = true := by
    decide +kernel
  have hunbroken : ∀ s ∈ [noteText 0x20, []], ∀ c ∈ s, isLineBoundary c = false := by
    intro s hs c hc
    simpa using List.all_eq_true.1 (List.all_eq_true.1 hplain s hs) c hc
  have hlines : ∀ s ∈ [noteText 0x20, []], OneLine s := by
    intro s hs c hc
    constructor
    · rintro rfl
      cases hunbroken s hs _ hc
    · rintro rfl
      cases hunbroken s hs _ hc
  have htexts : textsOf [noteText 0x20, []] = [noteText 0x20] := by decide +kernel
  have hloads := @jsonLoads_of_readsNote _ (py "a b") (show readsNote (noteText 0x20) _ = true by
    decide +kernel)
  have hnesting : nesting (noteText 0x20) ≤ 900 := by decide +kernel
  have hread := jsonLoadsWithin_eq_ok.2 ⟨hnesting, hloads⟩
  refine (framed_iff hlines ?_).2 ?_
  · rw [htexts, List.forall_mem_singleton, hread]
    rintro ⟨⟩
  · rw [htexts, List.forall_mem_singleton, hloads]
    refine ⟨hunbroken _ List.mem_cons_self, hnesting, ?_⟩
    rintro ⟨⟩

/-- A raw line separator in a string makes two lines of one text. -/
theorem separator_not_framed : ¬ Framed (jsonLoadsWithin 900) [noteText 0x2028] := by
  rintro ⟨values, h⟩
  have hlength := congrArg List.length h.decoded
  revert hlength
  decide +kernel

end TrueFigure.Server
