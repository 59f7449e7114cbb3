import Mathlib.Data.List.TakeWhile
import TrueFigure.Python.Text

/-!
# Bytes and lines

`str.encode`, `bytes.decode` and `str.splitlines`. A line ends at every character
Unicode treats as a line boundary, not only at line feeds and carriage returns.
-/
namespace TrueFigure.Python

/-! ### UTF-8 -/

def scalar (c : CodePoint) : Char := Char.ofNat c.val

/-- `s.encode("utf-8")`. -/
def utf8Encode (s : PyStr) : Except PyErr ByteArray :=
  if utf8Encodable s then .ok (String.ofList (s.map scalar)).toByteArray
  else .error .unicodeEncodeError

/-- `data.decode("utf-8")`. -/
def utf8Decode (data : ByteArray) : Except PyErr PyStr :=
  match data.utf8Decode? with
  | some chars => .ok (chars.toList.map fun c => Fin.ofNat 0x110000 c.toNat)
  | none => .error .unicodeDecodeError

theorem ofNat_scalar {c : CodePoint} (h : isSurrogate c = false) :
    Fin.ofNat 0x110000 (scalar c).toNat = c := by
  have hvalid : c.val.isValidChar := by
    simp only [isSurrogate, Bool.and_eq_false_imp, decide_eq_true_eq, decide_eq_false_iff_not] at h
    have := c.isLt
    simp only [Nat.isValidChar]
    omega
  have hval : (scalar c).toNat = c.val := by
    rw [scalar, Char.ofNat, dif_pos hvalid]
    rfl
  rw [hval]
  exact Fin.ofNat_val_eq_self c

theorem utf8Decode_encode {s : PyStr} {data : ByteArray} (h : utf8Encode s = .ok data) :
    utf8Decode data = .ok s := by
  unfold utf8Encode at h
  split_ifs at h with hs
  cases h
  have hmap : (s.map scalar).map (fun c => Fin.ofNat 0x110000 c.toNat) = s := by
    rw [List.map_map]
    refine (List.map_congr_left fun c hc => ?_).trans (List.map_id s)
    have := List.all_eq_true.1 hs c hc
    exact ofNat_scalar (by simpa using this)
  simp only [utf8Decode, String.toByteArray_ofList, List.utf8Decode?_utf8Encode, hmap]

/-! ### Lines -/

/-- `str.splitlines` ends a line here. -/
def isLineBoundary (c : CodePoint) : Bool :=
  (0x0A ≤ c.val && c.val ≤ 0x0D) || (0x1C ≤ c.val && c.val ≤ 0x1E) || c.val = 0x85 ||
    c.val = 0x2028 || c.val = 0x2029

/-- The lines from here on, behind the start of the current one; a line feed behind a
carriage return belongs to it. -/
def splitlinesFrom (afterCr : Bool) (line : PyStr) : PyStr → List PyStr
  | [] => if line = [] then [] else [line]
  | c :: s =>
    if afterCr && c = 0x0A then splitlinesFrom false line s
    else if isLineBoundary c then line :: splitlinesFrom (c = 0x0D) [] s
    else splitlinesFrom false (line ++ [c]) s

/-- `s.splitlines()`. -/
def splitlines (s : PyStr) : List PyStr := splitlinesFrom false [] s

/-- `"\n".join(lines)`. -/
def joinLines (lines : List PyStr) : PyStr := [0x0A].intercalate lines

/-- `not line.strip()`. -/
def blank (line : PyStr) : Bool := strip line = []

/-- No line feed and no carriage return. -/
def OneLine (s : PyStr) : Prop := ∀ c ∈ s, c ≠ 0x0A ∧ c ≠ 0x0D

/-- The pieces of a text without carriage returns, the last one closed. -/
def piecesFrom (line : PyStr) : PyStr → List PyStr
  | [] => [line]
  | c :: s => if isLineBoundary c then line :: piecesFrom [] s else piecesFrom (line ++ [c]) s

variable {line s t : PyStr} {lines : List PyStr}

theorem isSpace_of_isLineBoundary {c : CodePoint} (h : isLineBoundary c = true) :
    isSpace c = true := by
  simp only [isLineBoundary, Bool.or_eq_true, Bool.and_eq_true, decide_eq_true_eq] at h
  simp only [isSpace, Bool.or_eq_true, Bool.and_eq_true, decide_eq_true_eq]
  omega

theorem blank_iff : blank s = true ↔ ∀ c ∈ s, isSpace c = true := by
  have hdrop : ∀ s : PyStr, s.dropWhile isSpace = [] ↔ ∀ c ∈ s, isSpace c = true :=
    fun s => List.dropWhile_eq_nil_iff
  simp only [blank, decide_eq_true_eq, strip, List.reverse_eq_nil_iff, hdrop, List.mem_reverse]
  constructor
  · intro h
    rw [← hdrop]
    cases hrest : s.dropWhile isSpace with
    | nil => rfl
    | cons c rest =>
      have hc := h c (by simp [hrest])
      have hhead := List.head?_dropWhile_not isSpace s
      rw [hrest] at hhead
      simp [hc] at hhead
  · intro h c hc
    exact h c (List.dropWhile_subset _ hc)

theorem blank_eq_false_iff : blank s = false ↔ ∃ c ∈ s, isSpace c = false := by
  rw [← Bool.not_eq_true, blank_iff]
  simp

theorem joinLines_cons (s t : PyStr) (lines : List PyStr) :
    joinLines (s :: t :: lines) = s ++ 0x0A :: joinLines (t :: lines) := by
  simp [joinLines, List.intercalate_cons_cons]

theorem joinLines_singleton (s : PyStr) : joinLines [s] = s := by simp [joinLines]

theorem all_joinLines {P : CodePoint → Bool} (hfeed : P 0x0A = true)
    (h : ∀ s ∈ lines, s.all P = true) : (joinLines lines).all P = true := by
  induction lines with
  | nil => rfl
  | cons s lines ih =>
    obtain ⟨hs, hlines⟩ := List.forall_mem_cons.1 h
    cases lines with
    | nil => rwa [joinLines_singleton]
    | cons t lines =>
      rw [joinLines_cons, List.all_append, List.all_cons, hs, hfeed, ih hlines]
      rfl

/-! ### Pieces of lines -/

/-- Without a carriage return, the lines are the pieces, of which the last may be
empty. -/
theorem splitlinesFrom_line (hs : OneLine s) (rest : PyStr) :
    splitlinesFrom false line (s ++ 0x0A :: rest) =
      piecesFrom line s ++ splitlinesFrom false [] rest := by
  induction s generalizing line with
  | nil => rfl
  | cons c s ih =>
    obtain ⟨⟨-, hcr⟩, hrest⟩ := List.forall_mem_cons.1 hs
    simp only [List.cons_append, splitlinesFrom, piecesFrom, Bool.false_and, Bool.false_eq_true,
      if_false, hcr, decide_false]
    split_ifs
    · rw [ih hrest]
      rfl
    · exact ih hrest

theorem splitlinesFrom_last (hs : OneLine s) : (splitlinesFrom false line s).filter (!blank ·) =
    (piecesFrom line s).filter (!blank ·) := by
  induction s generalizing line with
  | nil =>
    rw [splitlinesFrom, piecesFrom]
    split_ifs with hline
    · rw [hline]
      rfl
    · rfl
  | cons c s ih =>
    obtain ⟨⟨-, hcr⟩, hrest⟩ := List.forall_mem_cons.1 hs
    simp only [splitlinesFrom, piecesFrom, Bool.false_and, Bool.false_eq_true, if_false, hcr,
      decide_false]
    split_ifs
    · rw [List.filter_cons, List.filter_cons, ih hrest]
    · exact ih hrest

theorem splitlines_joinLines (h : ∀ s ∈ lines, OneLine s) :
    (splitlines (joinLines lines)).filter (!blank ·) =
      lines.flatMap fun s => (piecesFrom [] s).filter (!blank ·) := by
  induction lines with
  | nil => rfl
  | cons s lines ih =>
    obtain ⟨hs, hlines⟩ := List.forall_mem_cons.1 h
    cases lines with
    | nil =>
      rw [joinLines_singleton, splitlines, splitlinesFrom_last hs]
      simp
    | cons t lines =>
      rw [joinLines_cons, splitlines, splitlinesFrom_line hs, List.filter_append, List.flatMap_cons]
      congr 1
      exact ih hlines

theorem piecesFrom_unbroken (hs : ∀ c ∈ s, isLineBoundary c = false) :
    piecesFrom line s = [line ++ s] := by
  induction s generalizing line with
  | nil => rw [piecesFrom, List.append_nil]
  | cons c s ih =>
    obtain ⟨hc, hrest⟩ := List.forall_mem_cons.1 hs
    rw [piecesFrom, hc, if_neg Bool.false_ne_true, ih hrest, List.append_assoc]
    rfl

theorem splitlinesFrom_unbroken (hs : ∀ c ∈ s, isLineBoundary c = false) :
    splitlinesFrom false line s = if line ++ s = [] then [] else [line ++ s] := by
  induction s generalizing line with
  | nil => rw [splitlinesFrom, List.append_nil]
  | cons c s ih =>
    obtain ⟨hc, hrest⟩ := List.forall_mem_cons.1 hs
    rw [splitlinesFrom, hc, Bool.false_and, if_neg Bool.false_ne_true, if_neg Bool.false_ne_true,
      ih hrest, List.append_assoc]
    rfl

theorem oneLine_of_unbroken (hs : ∀ c ∈ s, isLineBoundary c = false) : OneLine s := by
  intro c hc
  constructor
  · rintro rfl
    cases hs _ hc
  · rintro rfl
    cases hs _ hc

/-- Lines without a boundary, none of them empty, are what they were before they were
joined. -/
theorem splitlines_unbroken (h : ∀ s ∈ lines, s ≠ [] ∧ ∀ c ∈ s, isLineBoundary c = false) :
    splitlines (joinLines lines) = lines := by
  induction lines with
  | nil => rfl
  | cons s lines ih =>
    obtain ⟨⟨hne, hs⟩, hlines⟩ := List.forall_mem_cons.1 h
    cases lines with
    | nil => rw [joinLines_singleton, splitlines, splitlinesFrom_unbroken hs, List.nil_append, if_neg hne]
    | cons t lines =>
      rw [joinLines_cons, splitlines, splitlinesFrom_line (oneLine_of_unbroken hs),
        piecesFrom_unbroken hs, List.nil_append, List.singleton_append]
      exact congrArg (s :: ·) (ih hlines)

theorem piecesFrom_break {c : CodePoint} (hc : isLineBoundary c = true) :
    piecesFrom line (s ++ c :: t) = piecesFrom line s ++ piecesFrom [] t := by
  induction s generalizing line with
  | nil => simp [piecesFrom, hc]
  | cons d s ih =>
    rw [List.cons_append, piecesFrom, piecesFrom]
    split_ifs
    · rw [ih]
      rfl
    · exact ih

/-- A character that is no white space stands in some piece. -/
theorem exists_piece (h : ∃ c ∈ line ++ s, isSpace c = false) :
    ∃ p, p ∈ (piecesFrom line s).filter (!blank ·) := by
  induction s generalizing line with
  | nil =>
    refine ⟨line, List.mem_filter.2 ⟨List.mem_singleton_self _, ?_⟩⟩
    rw [List.append_nil] at h
    rw [blank_eq_false_iff.2 h]
    rfl
  | cons d s ih =>
    rw [piecesFrom]
    split_ifs with hd
    · rw [List.filter_cons]
      cases hline : blank line with
      | false => exact ⟨line, by simp⟩
      | true =>
        obtain ⟨c, hmem, hc⟩ := h
        have hne : c ≠ d := by
          rintro rfl
          rw [isSpace_of_isLineBoundary hd] at hc
          cases hc
        have hs : c ∈ s := by
          rcases List.mem_append.1 hmem with hmem | hmem
          · rw [blank_iff.1 hline c hmem] at hc
            cases hc
          · exact (List.mem_cons.1 hmem).resolve_left hne
        simpa using ih ⟨c, by simpa using hs, hc⟩
    · exact ih (by simpa using h)

theorem piecesFrom_pos (h : blank s = false) : 0 < ((piecesFrom [] s).filter (!blank ·)).length := by
  obtain ⟨p, hp⟩ := @exists_piece [] s (blank_eq_false_iff.1 h)
  exact List.length_pos_of_mem hp

theorem piecesFrom_blank (hline : blank line = true) (h : blank s = true) :
    (piecesFrom line s).filter (!blank ·) = [] := by
  induction s generalizing line with
  | nil => simp [piecesFrom, hline]
  | cons c s ih =>
    obtain ⟨hc, hs⟩ := List.forall_mem_cons.1 (blank_iff.1 h)
    have hrest : blank s = true := blank_iff.2 hs
    rw [piecesFrom]
    split_ifs
    · rw [List.filter_cons, hline]
      exact ih rfl hrest
    · refine ih (blank_iff.2 fun d hd => ?_) hrest
      rcases List.mem_append.1 hd with hd | hd
      · exact blank_iff.1 hline d hd
      · rw [List.mem_singleton.1 hd]
        exact hc

end TrueFigure.Python
