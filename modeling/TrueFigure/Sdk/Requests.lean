import TrueFigure.Python.Values

/-!
# Requests of the client

The headers `_request` of `sdk/truefigure/client.py` sends, and the ones `flush`
and `echo` add.
-/
namespace TrueFigure.Sdk

open TrueFigure.Python

abbrev Headers := List (PyStr × PyStr)

/-- `X-TrueFigure-Mode`. -/
def modeHeader : PyStr := py "X-TrueFigure-Mode"

/-- `X-TrueFigure-Source`. -/
def sourceHeader : PyStr := py "X-TrueFigure-Source"

/-- The settings of a client its headers show. -/
structure ClientSettings where
  apiKey : PyStr
  sourceRef : Option PyStr

def requestHeaders (c : ClientSettings) (extraHeaders : Headers) : Headers :=
  [(py "Authorization", py "Bearer " ++ c.apiKey), (py "Content-Type", py "application/json")] ++
    (match c.sourceRef with
      | some source => if source = [] then [] else [(sourceHeader, source)]
      | none => []) ++ extraHeaders

/-- The headers of `flush(mode)` and `ingest(…, mode)`. -/
def flushHeaders (c : ClientSettings) (mode : PyStr) : Headers :=
  requestHeaders c [(modeHeader, mode)]

def echoHeaders (c : ClientSettings) : Headers := requestHeaders c [(modeHeader, py "test")]

theorem flushHeaders_mode (c : ClientSettings) (mode : PyStr) :
    (flushHeaders c mode).lookup modeHeader = some mode := by
  have hnames : (py "Authorization" == modeHeader) = false ∧
      (py "Content-Type" == modeHeader) = false ∧ (sourceHeader == modeHeader) = false := by decide
  have hlookup : ∀ (name value : PyStr) (rest : Headers), (name == modeHeader) = false →
      ((name, value) :: rest).lookup modeHeader = rest.lookup modeHeader := by
    intro name value rest hne
    have : (modeHeader == name) = false := by rw [BEq.comm]; exact hne
    rw [List.lookup_cons, this]
  simp only [flushHeaders, requestHeaders, List.cons_append, List.nil_append]
  rw [hlookup _ _ _ hnames.1, hlookup _ _ _ hnames.2.1]
  split
  · split_ifs
    · simp
    · simp only [List.singleton_append]
      rw [hlookup _ _ _ hnames.2.2]
      simp
  · simp

end TrueFigure.Sdk
