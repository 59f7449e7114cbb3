import TrueFigure.Server.Deployments

/-!
# The request loop of the client

`_request` of `sdk/truefigure/client.py` over a network that may lose an answer or
put a server error in its place after the server has done its work. What the
transport raises is not caught; of an answer, only a retryable failure is tried
again.
-/
namespace TrueFigure.Sdk

open TrueFigure.Python

/-- An error as `ErrorObject.from_dict` reads it; `detail` is not among its
fields. -/
structure ErrorObject where
  code : PyStr
  message : PyStr
  retryable : Bool
  fieldPath : Option PyStr
  deriving DecidableEq

/-- `ErrorObject.from_dict` of an error of the server. -/
def ErrorObject.ofServer (e : Server.ErrorObject) : ErrorObject where
  code := e.code
  message := e.message
  retryable := e.retryable
  fieldPath := e.fieldPath

/-- A response as the transport returns it. -/
structure Response (α : Type) where
  status : ℕ
  data : Option α
  errors : List ErrorObject
  deriving DecidableEq

def Response.ofAnswer {α : Type} (a : Server.Answer α) : Response α where
  status := a.status
  data := a.data
  errors := a.errors.map ErrorObject.ofServer

/-- What becomes of an answer on its way back. -/
inductive Delivery
  | intact
  /-- The transport raises. -/
  | lost
  /-- A server error comes in its place. -/
  | replaced (status : ℕ) (errors : List ErrorObject) (h : 500 ≤ status)

/-- What the caller is raised. -/
inductive ClientError
  /-- The exception of the transport. -/
  | unreachable
  | rateLimited (errors : List ErrorObject)
  | trueFigure (errors : List ErrorObject)
  /-- `KeyError`. -/
  | noData
  deriving DecidableEq

namespace Response

variable {α : Type} (r : Response α)

def succeeded : Bool := r.status < 400 && r.errors.isEmpty

def retryable : Bool :=
  r.status = 429 || 500 ≤ r.status || r.errors.any ErrorObject.retryable

/-- The exception for a response that is not tried again. -/
def failure : ClientError :=
  if r.status = 429 then .rateLimited r.errors
  else .trueFigure (if r.errors = [] then
    [⟨py "TF-SRV-001", py ("HTTP " ++ toString r.status), true, none⟩] else r.errors)

end Response

/-- What the transport returns for an answer, unless it raises. -/
def Delivery.deliver {α : Type} (answer : Server.Answer α) : Delivery → Option (Response α)
  | .intact => some (.ofAnswer answer)
  | .lost => none
  | .replaced status errors _ => some ⟨status, none, errors⟩

section Request

variable {σ α : Type} (serve : ℕ → σ → Server.Answer α × σ) (network : ℕ → Delivery)

/-- The loop of `_request` with this many retries left. The server does its work
at each attempt, whatever becomes of its answer. -/
def requestLoop (left attempt : ℕ) (s : σ) : Except ClientError (Response α) × σ :=
  let served := serve attempt s
  match (network attempt).deliver served.1 with
  | none => (.error .unreachable, served.2)
  | some r =>
    if r.succeeded then (.ok r, served.2)
    else if r.retryable then
      match left with
      | 0 => (.error r.failure, served.2)
      | left + 1 => requestLoop left (attempt + 1) served.2
    else (.error r.failure, served.2)

def requestData (maxRetries : ℕ) (s : σ) : Except ClientError α × σ :=
  match requestLoop serve network maxRetries 1 s with
  | (.error e, s') => (.error e, s')
  | (.ok r, s') =>
    match r.data with
    | some data => (.ok data, s')
    | none => (.error .noData, s')

end Request

variable {σ α : Type} {serve : ℕ → σ → Server.Answer α × σ} {network : ℕ → Delivery}
  {left attempt maxRetries : ℕ} {s s' : σ}

theorem Delivery.deliver_succeeded {answer : Server.Answer α} {d : Delivery} {r : Response α}
    (h : d.deliver answer = some r) (hok : r.succeeded = true) : r = .ofAnswer answer := by
  cases d with
  | intact => exact (Option.some.inj h).symm
  | lost => cases h
  | replaced status errors hstatus =>
    obtain rfl := Option.some.inj h
    simp only [Response.succeeded, Bool.and_eq_true, decide_eq_true_eq] at hok
    omega

/-- What the loop returns is the server's answer in its last state, and what the
server keeps at every attempt holds there and after it. -/
theorem requestLoop_ok {I : σ → Prop} (hI : I s)
    (hserve : ∀ n s, I s → I (serve n s).2) {r : Response α}
    (h : requestLoop serve network left attempt s = (.ok r, s')) :
    ∃ n before, I before ∧ serve n before = ((serve n before).1, s') ∧
      r = .ofAnswer (serve n before).1 ∧ r.succeeded = true := by
  induction left generalizing attempt s with
  | zero =>
    unfold requestLoop at h
    extract_lets served at h
    split at h
    · cases h
    · rename_i r' hdelivered
      split_ifs at h with hok
      · obtain ⟨hr, rfl⟩ := Prod.mk.inj h
        obtain rfl := Except.ok.inj hr
        exact ⟨attempt, s, hI, rfl, Delivery.deliver_succeeded hdelivered hok, hok⟩
      · cases h
      · cases h
  | succ left ih =>
    unfold requestLoop at h
    extract_lets served at h
    split at h
    · cases h
    · rename_i r' hdelivered
      split_ifs at h with hok
      · obtain ⟨hr, rfl⟩ := Prod.mk.inj h
        obtain rfl := Except.ok.inj hr
        exact ⟨attempt, s, hI, rfl, Delivery.deliver_succeeded hdelivered hok, hok⟩
      · exact ih (hserve attempt s hI) h
      · cases h

/-- Whatever becomes of the answers, what the server keeps at every attempt holds
after the loop. -/
theorem requestLoop_invariant {I : σ → Prop} (hI : I s) (hserve : ∀ n s, I s → I (serve n s).2) :
    I (requestLoop serve network left attempt s).2 := by
  induction left generalizing attempt s with
  | zero =>
    unfold requestLoop
    extract_lets served
    split
    · exact hserve attempt s hI
    · split_ifs <;> exact hserve attempt s hI
  | succ left ih =>
    unfold requestLoop
    extract_lets served
    split
    · exact hserve attempt s hI
    · split_ifs
      · exact hserve attempt s hI
      · exact ih (hserve attempt s hI)
      · exact hserve attempt s hI

end TrueFigure.Sdk
