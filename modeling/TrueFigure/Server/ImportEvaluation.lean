import TrueFigure.Server.Imports

/-!
# What the lines of an import come to

The loop of `run_import` settles one line after the other, as the loop of a batch
settles its events: its counts, its error report and the rows it leaves follow
from what the lines come to.
-/
namespace TrueFigure.Server

open TrueFigure.Library TrueFigure.Python

/-- What a line that is not blank comes to. -/
inductive LineOutcome
  | undecodable
  | settled (x : Settled)

def LineOutcome.status : LineOutcome → EventStatus
  | .undecodable => .rejected
  | .settled x => x.verdict.status

def LineOutcome.persisted : LineOutcome → Persisted
  | .undecodable => .nothing
  | .settled x => x.persisted

def Persisted.isEvent : Persisted → Bool
  | .event _ _ _ => true
  | _ => false

def LineOutcome.stores (o : LineOutcome) : Bool := o.persisted.isEvent

def LineOutcome.errorLine (env : Env) (lineNo : ℕ) : LineOutcome → PyStr
  | .undecodable => undecodableLine env lineNo
  | .settled x => rejectedLine env lineNo { x.verdict with index := lineNo }

/-- The outcomes of the lines up to the first that raises, and what it raises. -/
def lineOutcomes (loads : Decoder) (env : Env) (intake : Intake) (clock : ℕ → ℕ) :
    Db × ℕ → List (ℕ × PyStr) → List (ℕ × LineOutcome) × Option Failure
  | _, [] => ([], none)
  | st, (lineNo, line) :: lines =>
    if blank line then lineOutcomes loads env intake clock st lines
    else
      match loads line with
      | .error .decode =>
        let rest := lineOutcomes loads env intake clock st lines
        ((lineNo, .undecodable) :: rest.1, rest.2)
      | .error .digits => ([], some (.python (.valueError
          (py "Exceeds the limit (4300 digits) for integer string conversion"))))
      | .error .recursion => ([], some (.python .recursionError))
      | .ok event =>
        match settle env intake st.1 ⟨event, clock lineNo⟩ with
        | .error e => ([], some e)
        | .ok x =>
          let st' := x.persisted.apply intake.principal.workspaceId st
          let rest := lineOutcomes loads env intake clock st' lines
          ((lineNo, .settled x) :: rest.1, rest.2)

/-- The rows and the sequence after these lines. -/
def persistLines (workspaceId : ℕ) (outcomes : List (ℕ × LineOutcome)) (st : Db × ℕ) : Db × ℕ :=
  outcomes.foldl (fun st o => o.2.persisted.apply workspaceId st) st

def tallyLines (outcomes : List (ℕ × LineOutcome)) : ImportCounts where
  received := outcomes.length
  accepted := outcomes.countP fun o => o.2.status = .accepted
  duplicate := outcomes.countP fun o => o.2.status = .duplicate
  rejected := outcomes.countP fun o => o.2.status = .rejected

/-- The error report of these lines, a line for each that is rejected. -/
def errorLinesOf (env : Env) (outcomes : List (ℕ × LineOutcome)) : List PyStr :=
  (outcomes.filter fun o => o.2.status = .rejected).map fun o => o.2.errorLine env o.1

variable {loads : Decoder} {env : Env} {intake : Intake} {clock : ℕ → ℕ} {st : Db × ℕ}

theorem processAlone_eq (hseq : SequenceAhead st) (index : ℕ) (sub : Submission) :
    processAlone env intake index sub st =
      match settle env intake st.1 sub with
      | .error e => (.error e, st)
      | .ok x => (.ok { x.verdict with index := index },
          x.persisted.apply intake.principal.workspaceId st) := by
  simp only [processAlone, run_processOne hseq]
  cases settle env intake st.1 sub <;> rfl

/-- The counts and the report after some lines more. -/
def ImportProgress.after (env : Env) (p : ImportProgress) (outcomes : List (ℕ × LineOutcome)) :
    ImportProgress :=
  let c := tallyLines outcomes
  ⟨⟨p.counts.received + c.received, p.counts.accepted + c.accepted,
    p.counts.duplicate + c.duplicate, p.counts.rejected + c.rejected⟩,
    p.errorLines ++ errorLinesOf env outcomes⟩

theorem ImportProgress.after_nil (p : ImportProgress) : p.after env [] = p := by
  simp [after, tallyLines, errorLinesOf]

/-- The counts and the report of a line, then of those behind it. -/
theorem ImportProgress.after_cons (p : ImportProgress) (lineNo : ℕ) (o : LineOutcome)
    (outcomes : List (ℕ × LineOutcome)) :
    p.after env ((lineNo, o) :: outcomes) =
      ImportProgress.after env ⟨p.counts.count o.status,
        if o.status = .rejected then p.errorLines ++ [o.errorLine env lineNo] else p.errorLines⟩
        outcomes := by
  simp only [after, tallyLines, errorLinesOf, List.length_cons, List.countP_cons,
    List.filter_cons]
  cases o.status <;> simp [ImportCounts.count] <;> omega

theorem importLines_eq (hseq : SequenceAhead st) (lines : List (ℕ × PyStr))
    (p : ImportProgress) :
    importLines loads env intake clock lines p st =
      let r := lineOutcomes loads env intake clock st lines
      (match r.2 with
        | some e => .error e
        | none => .ok (p.after env r.1),
        persistLines intake.principal.workspaceId r.1 st) := by
  induction lines generalizing p st with
  | nil =>
    simp only [importLines, lineOutcomes, ImportProgress.after_nil]
    rfl
  | cons numbered lines ih =>
    obtain ⟨lineNo, line⟩ := numbered
    rw [importLines, lineOutcomes]
    cases hblank : blank line with
    | true =>
      rw [if_pos rfl, if_pos rfl]
      exact ih hseq p
    | false =>
      rw [if_neg Bool.false_ne_true, if_neg Bool.false_ne_true]
      cases hloads : loads line with
      | error e =>
        cases e with
        | decode =>
          simp only [ih hseq, ImportProgress.after_cons]
          rfl
        | digits => rfl
        | recursion => rfl
      | ok event =>
        simp only [processAlone_eq hseq]
        cases hsettle : settle env intake st.1 ⟨event, clock lineNo⟩ with
        | error e => rfl
        | ok x =>
          simp only [ih (hseq.apply intake.principal.workspaceId x.persisted),
            ImportProgress.after_cons]
          rfl

theorem lineOutcomes_numbers {lines : List (ℕ × PyStr)}
    (h : (lineOutcomes loads env intake clock st lines).2 = none) :
    (lineOutcomes loads env intake clock st lines).1.map Prod.fst =
      (lines.filter fun l => !blank l.2).map Prod.fst := by
  induction lines generalizing st with
  | nil => rfl
  | cons numbered lines ih =>
    obtain ⟨lineNo, line⟩ := numbered
    rw [lineOutcomes] at h ⊢
    rw [List.filter_cons]
    cases hblank : blank line with
    | true =>
      rw [hblank, if_pos rfl] at h
      exact ih h
    | false =>
      rw [hblank, if_neg Bool.false_ne_true] at h
      simp only [Bool.false_eq_true, if_false, Bool.not_false, if_true, List.map_cons]
      cases hloads : loads line with
      | error e =>
        cases e with
        | decode =>
          simp only [hloads] at h
          simp only [List.map_cons, ih h]
        | digits => simp [hloads] at h
        | recursion => simp [hloads] at h
      | ok event =>
        simp only [hloads] at h
        cases hsettle : settle env intake st.1 ⟨event, clock lineNo⟩ with
        | error e => simp [hsettle] at h
        | ok x =>
          simp only [hsettle] at h
          simp only [hsettle, List.map_cons, ih h]

end TrueFigure.Server
