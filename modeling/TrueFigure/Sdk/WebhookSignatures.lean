import TrueFigure.Python.IntText
import TrueFigure.Python.JsonRoundTrip
import TrueFigure.Server.DeliveryWorker
import TrueFigure.Server.SecretStorage

/-!
# Webhook signatures

`webhooks.py` of the client against the headers that `_attempt` sends. The verifier takes any
string or bytes; a comparison in constant time takes ASCII text alone.
-/
namespace TrueFigure.Sdk

open TrueFigure.Python TrueFigure.Server

/-- A `str` or `bytes`. -/
inductive Text
  | str (s : PyStr)
  | bytes (b : Bytes)

/-- What the verifier runs with: HMAC-SHA256, the decimal digits and the lower case of
characters beyond ASCII, and `int(time.time())`. -/
structure Consumer where
  hmacSha256 : Bytes → Bytes → Bytes
  decimal : CodePoint → Option ℕ
  lowerOther : PyStr → PyStr
  clock : ℤ

def isAscii (s : PyStr) : Bool := s.all fun c => c.val < 128

/-- `s.lower()`. -/
def strLower (lowerOther : PyStr → PyStr) (s : PyStr) : PyStr :=
  if isAscii s then
    s.map fun c => if 65 ≤ c.val ∧ c.val ≤ 90 then Fin.ofNat 0x110000 (c.val + 32) else c
  else lowerOther s

def Text.asBytes : Text → Except PyErr Bytes
  | .str s => strEncode s
  | .bytes b => .ok b

def Text.orEmpty : Text → Text
  | .bytes [] => .str []
  | text => text

/-- `hmac.compare_digest`. -/
def compareDigest (expected : PyStr) : Text → Except PyErr Bool
  | .str s => if isAscii expected && isAscii s then .ok (expected = s) else .error .typeError
  | .bytes _ => .error .typeError

/-- The bytes that are signed. -/
def message (timestamp : ℤ) (rawBody : Bytes) : Bytes :=
  encodeUtf8 (toString timestamp ++ ".") ++ rawBody

/-- `_sign`. -/
def signature (hmac : Bytes → Bytes → Bytes) (secret : PyStr) (timestamp : ℤ) (rawBody : Bytes) :
    Except PyErr PyStr := do
  let key ← strEncode secret
  .ok (py "v1=" ++ py (hexDigits (hmac key (message timestamp rawBody))))

/-- The timestamp is within the tolerance of the clock. -/
def Within (clock timestamp : ℤ) (tolerance : Option ℤ) : Prop :=
  ∀ t ∈ tolerance, |clock - timestamp| ≤ t

instance (clock timestamp : ℤ) (tolerance : Option ℤ) : Decidable (Within clock timestamp tolerance) :=
  inferInstanceAs (Decidable (∀ t ∈ tolerance, |clock - timestamp| ≤ t))

namespace Consumer

variable (p : Consumer)

/-- `int(timestamp)`; `none` is its `ValueError`. -/
def int : Text → Option ℤ
  | .str s => intOfStr p.decimal s
  | .bytes b => intOfBytes b

def verifySignature (secret : PyStr) (timestamp rawBody signatureText : Text)
    (tolerance : Option ℤ) : Except PyErr Bool :=
  match p.int timestamp with
  | none => .ok false
  | some ts =>
    if Within p.clock ts tolerance then do
      let body ← rawBody.asBytes
      let expected ← signature p.hmacSha256 secret ts body
      compareDigest expected signatureText.orEmpty
    else .ok false

/-- What `verify` raises. -/
inductive Refusal
  | verification (message : PyStr)
  | python (e : PyErr)

/-- `lower.get(name)`; of two names that are one in lower case, the later counts. -/
def header (headers : List (PyStr × PyStr)) (name : PyStr) : Option PyStr :=
  (headers.map fun h => (strLower p.lowerOther h.1, h.2)).reverse.lookup name

def verify (secret : PyStr) (headers : List (PyStr × PyStr)) (rawBody : Text)
    (tolerance : Option ℤ) : Except Refusal Unit :=
  match p.header headers (py "x-truefigure-timestamp"),
    p.header headers (py "x-truefigure-signature") with
  | some (c :: ts), some (d :: sig) =>
    match p.verifySignature secret (.str (c :: ts)) rawBody (.str (d :: sig)) tolerance with
    | .ok true => .ok ()
    | .ok false => .error (.verification (py "webhook signature invalid or timestamp out of tolerance"))
    | .error e => .error (.python e)
  | _, _ => .error (.verification (py "missing X-TrueFigure-Timestamp/Signature headers"))

end Consumer

/-! ### Text -/

theorem py_append (a b : String) : py (a ++ b) = py a ++ py b := by
  simp only [py, String.toList_append, List.map_append]

theorem numeral_length_le {n k : ℕ} (hk : 0 < k) (h : n < 10 ^ k) : (py (toString n)).length ≤ k := by
  have hdigits : (Nat.toDigits 10 n).length ≤ k := (Nat.length_toDigits_le_iff (by decide) hk).2 h
  simpa [py, toString] using hdigits

/-- The decimal form of a number is read back. -/
theorem intOfStr_numeral (decimal : CodePoint → Option ℕ) {n : ℕ}
    (h : (py (toString n)).length ≤ 4300) : intOfStr decimal (py (toString n)) = some (n : ℤ) := by
  have hne : py (toString n) ≠ [] := by
    intro hnil
    have hlen := congrArg List.length hnil
    simp [py, toString] at hlen
  have hall : (py (toString n)).all isDigit = true :=
    List.all_eq_true.2 fun c hc => isDigit_of_mem_numeral hc
  rw [intOfStr_of_digits decimal hne hall, if_pos h, digitsValue_numeral]

theorem digitChar_ascii : ∀ n < 16, (Nat.digitChar n).toNat < 128 := by decide

theorem digitChar_injective : ∀ m < 16, ∀ n < 16, Nat.digitChar m = Nat.digitChar n → m = n := by
  decide

theorem isAscii_hexDigits (bytes : Bytes) : isAscii (py (hexDigits bytes)) = true := by
  apply List.all_eq_true.2
  intro c hc
  simp only [py, hexDigits, String.toList_ofList, List.mem_map, List.mem_flatMap] at hc
  obtain ⟨d, ⟨b, -, hd⟩, rfl⟩ := hc
  have hlt : d.toNat < 128 := by
    have hb := b.toNat_lt
    simp only [List.mem_cons, List.not_mem_nil, or_false] at hd
    rcases hd with rfl | rfl
    · exact digitChar_ascii _ (by omega)
    · exact digitChar_ascii _ (by omega)
  simp only [Fin.val_ofNat, decide_eq_true_eq]
  omega

theorem hexDigits_injective {a b : Bytes} (h : hexDigits a = hexDigits b) : a = b := by
  have hlist := congrArg String.toList h
  simp only [hexDigits, String.toList_ofList] at hlist
  clear h
  induction a generalizing b with
  | nil =>
    cases b with
    | nil => rfl
    | cons y b => simp at hlist
  | cons x a ih =>
    cases b with
    | nil => simp at hlist
    | cons y b =>
      simp only [List.flatMap_cons, List.cons_append, List.nil_append, List.cons.injEq] at hlist
      obtain ⟨hhigh, hlow, hrest⟩ := hlist
      have hx := x.toNat_lt
      have hy := y.toNat_lt
      have hdiv := digitChar_injective _ (by omega) _ (by omega) hhigh
      have hmod := digitChar_injective _ (by omega) _ (by omega) hlow
      have hxy : x = y := UInt8.toNat_inj.1 (by omega)
      rw [hxy, ih hrest]

/-! ### The framing -/

theorem isDigit_of_mem_toString {n : ℕ} {c : Char} (h : c ∈ (toString n).toList) :
    isDigit (chr c) = true :=
  isDigit_of_mem_numeral (List.mem_map_of_mem h)

theorem toString_negSucc (m : ℕ) :
    (toString (Int.negSucc m)).toList = '-' :: (toString (m + 1)).toList := by
  show ("-" ++ toString (m + 1)).toList = _
  rw [String.toList_append]
  rfl

theorem dot_notMem_toString (n : ℤ) : '.' ∉ (toString n).toList := by
  intro h
  cases n with
  | ofNat m => exact absurd (@isDigit_of_mem_toString m _ h) (by decide)
  | negSucc m =>
    rw [toString_negSucc] at h
    rcases List.mem_cons.1 h with hminus | hdigit
    · cases hminus
    · exact absurd (isDigit_of_mem_toString hdigit) (by decide)

theorem minus_notMem_toString (n : ℕ) : '-' ∉ (toString n).toList := fun h =>
  absurd (isDigit_of_mem_toString h) (by decide)

theorem toString_int_injective {n n' : ℤ} (h : toString n = toString n') : n = n' := by
  have hlist := congrArg String.toList h
  cases n with
  | ofNat m =>
    cases n' with
    | ofNat m' => exact congrArg Int.ofNat (numeral_injective (congrArg py h))
    | negSucc m' =>
      rw [toString_negSucc] at hlist
      exact absurd (hlist ▸ List.mem_cons_self) (minus_notMem_toString m)
  | negSucc m =>
    rw [toString_negSucc] at hlist
    cases n' with
    | ofNat m' => exact absurd (hlist.symm ▸ List.mem_cons_self) (minus_notMem_toString m')
    | negSucc m' =>
      rw [toString_negSucc] at hlist
      have hsucc := String.toList_inj.1 (List.cons.inj hlist).2
      exact congrArg Int.negSucc (Nat.succ.inj (numeral_injective (congrArg py hsucc)))

/-- Of two framed texts one of which starts the other, the texts are the same. -/
theorem eq_of_framed {a b : String} {rest : Bytes} (hb : '.' ∉ b.toList)
    (h : encodeUtf8 (a ++ ".") ++ rest = encodeUtf8 (b ++ ".")) : a = b ∧ rest = [] := by
  have hbytes : (a ++ ".").toList.utf8Encode ++ (⟨rest.toArray⟩ : ByteArray) =
      (b ++ ".").toList.utf8Encode := by
    rw [String.utf8Encode_toList, String.utf8Encode_toList]
    apply ByteArray.ext
    apply Array.ext'
    simpa [encodeUtf8] using h
  have hprefix := List.isPrefix_of_utf8Encode_append_eq_utf8Encode _ hbytes
  have hab : a = b := by
    rw [String.toList_append, String.toList_append] at hprefix
    rcases List.prefix_concat_iff.1 hprefix with hsame | hshorter
    · exact String.toList_inj.1 (List.append_inj_left' hsame rfl)
    · exact absurd (hshorter.subset (List.mem_append_right _ List.mem_cons_self)) hb
  subst hab
  exact ⟨rfl, by simpa using h⟩

/-- The bytes that are signed determine the integer and the body. -/
theorem message_injective {n n' : ℤ} {body body' : Bytes}
    (h : message n body = message n' body') : n = n' ∧ body = body' := by
  rcases List.append_eq_append_iff.1 h with ⟨rest, hframe, hbody⟩ | ⟨rest, hframe, hbody⟩
  · obtain ⟨hn, rfl⟩ := eq_of_framed (dot_notMem_toString n') hframe.symm
    exact ⟨toString_int_injective hn, hbody⟩
  · obtain ⟨hn, rfl⟩ := eq_of_framed (dot_notMem_toString n) hframe.symm
    exact ⟨(toString_int_injective hn).symm, hbody.symm⟩

/-! ### The verifier -/

/-- The arguments of `verify_signature`. -/
structure Claimed where
  secret : PyStr
  timestamp : Text
  rawBody : Text
  signatureText : Text
  tolerance : Option ℤ

namespace Claimed

variable (p : Consumer) (x : Claimed)

def accepted : Except PyErr Bool :=
  p.verifySignature x.secret x.timestamp x.rawBody x.signatureText x.tolerance

/-- The timestamp denotes an integer within the tolerance, and the text is the signature of it
and the body. -/
def Genuine : Prop :=
  ∃ ts body, p.int x.timestamp = some ts ∧ Within p.clock ts x.tolerance ∧
    x.rawBody.asBytes = .ok body ∧ ∃ expected, signature p.hmacSha256 x.secret ts body = .ok expected ∧
      x.signatureText = .str expected

/-- If the comparison is reached, the secret and the body can be encoded, and the signature is
ASCII text, or empty. -/
def Comparable : Prop :=
  ∀ ts, p.int x.timestamp = some ts → Within p.clock ts x.tolerance →
    utf8Encodable x.secret = true ∧ (∀ s, x.rawBody = .str s → utf8Encodable s = true) ∧
      (∀ s, x.signatureText = .str s → isAscii s = true) ∧
        ∀ b, x.signatureText = .bytes b → b = []

end Claimed

/-- What both sides promise about signatures. -/
structure SignaturesAgree (env : HookEnv) (p : Consumer) (x : Claimed) : Prop where
  /-- The consumer accepts what is sent for a webhook created with its secret. -/
  delivered : ∀ ws body ref t t', createWebhook env ws body ref t = .ok (.created ref, t') →
    ∃ row ∈ t'.webhooks, row.webhookRef = ref ∧ ∀ (a : Attempt) (tolerance : Option ℤ),
      a.secretHash = row.secretHash → a.now ≤ datetimeMax →
        Within p.clock (a.now / 1000000 : ℕ) tolerance → ∃ call, a.call env = some call ∧
          p.verify (py body.secret) (call.headers.map fun h => (py h.1, py h.2)) (.bytes call.body)
            tolerance = .ok ()
  verified : ∃ result, x.accepted p = .ok result ∧ (result = true ↔ x.Genuine p)
  /-- A text is the signature of one integer and one body, as far as the hash tells their
  messages apart. -/
  binds : ∀ (y : Claimed) (q : Consumer), q.hmacSha256 = p.hmacSha256 → y.secret = x.secret →
    y.signatureText = x.signatureText → x.accepted p = .ok true → y.accepted q = .ok true →
      ∀ ts ts' body body' key, p.int x.timestamp = some ts → q.int y.timestamp = some ts' →
        x.rawBody.asBytes = .ok body → y.rawBody.asBytes = .ok body' →
          strEncode x.secret = .ok key →
            (p.hmacSha256 key (message ts body) = p.hmacSha256 key (message ts' body') →
              message ts body = message ts' body') → ts = ts' ∧ body = body'

section Verifier

variable {p : Consumer} {x : Claimed} {env : HookEnv}

theorem isAscii_expected (mac : Bytes) : isAscii (py "v1=" ++ py (hexDigits mac)) = true := by
  have hstart : isAscii (py "v1=") = true := by decide
  have hhex := isAscii_hexDigits mac
  unfold isAscii at *
  rw [List.all_append, hstart, hhex, Bool.and_self]

theorem signature_eq_ok {hmac : Bytes → Bytes → Bytes} {secret expected : PyStr} {ts : ℤ}
    {body : Bytes} (h : signature hmac secret ts body = .ok expected) :
    ∃ key, strEncode secret = .ok key ∧
      expected = py "v1=" ++ py (hexDigits (hmac key (message ts body))) := by
  obtain ⟨key, hkey, h⟩ := bind_eq_ok h
  exact ⟨key, hkey, (Except.ok.inj h).symm⟩

theorem compareDigest_ok {expected : PyStr} {text : Text} {result : Bool}
    (h : compareDigest expected text = .ok result) :
    ∃ s, text = .str s ∧ isAscii s = true ∧ (result = true ↔ s = expected) := by
  cases text with
  | bytes b => cases h
  | str s =>
    simp only [compareDigest] at h
    split_ifs at h with hascii
    obtain rfl := Except.ok.inj h
    rw [Bool.and_eq_true] at hascii
    exact ⟨s, rfl, hascii.2, by rw [decide_eq_true_eq, eq_comm]⟩

/-- A verification that comes to the comparison. -/
theorem accepted_eq_ok {ts : ℤ} {result : Bool} (hts : p.int x.timestamp = some ts)
    (hwithin : Within p.clock ts x.tolerance) (h : x.accepted p = .ok result) :
    ∃ body key, x.rawBody.asBytes = .ok body ∧ strEncode x.secret = .ok key ∧
      compareDigest (py "v1=" ++ py (hexDigits (p.hmacSha256 key (message ts body))))
        x.signatureText.orEmpty = .ok result := by
  unfold Claimed.accepted Consumer.verifySignature at h
  simp only [hts, if_pos hwithin] at h
  obtain ⟨body, hbody, h⟩ := bind_eq_ok h
  obtain ⟨expected, hexpected, h⟩ := bind_eq_ok h
  obtain ⟨key, hkey, rfl⟩ := signature_eq_ok hexpected
  exact ⟨body, key, hbody, hkey, h⟩

theorem Text.asBytes_ok_iff {text : Text} : (∃ body, text.asBytes = .ok body) ↔
    ∀ s, text = .str s → utf8Encodable s = true := by
  cases text with
  | bytes b => exact iff_of_true ⟨b, rfl⟩ fun s hs => by cases hs
  | str s =>
    constructor
    · rintro hbody s' hs
      obtain rfl : s = s' := Text.str.inj hs
      exact strEncode_isOk_iff.1 hbody
    · exact fun h => strEncode_isOk_iff.2 (h s rfl)

theorem verified_of_comparable (h : x.Comparable p) :
    ∃ result, x.accepted p = .ok result ∧ (result = true ↔ x.Genuine p) := by
  unfold Claimed.accepted Consumer.verifySignature
  cases hts : p.int x.timestamp with
  | none =>
    refine ⟨false, rfl, iff_of_false Bool.false_ne_true ?_⟩
    rintro ⟨ts, body, hts', -⟩
    rw [hts] at hts'
    cases hts'
  | some ts =>
    by_cases hwithin : Within p.clock ts x.tolerance
    · obtain ⟨hsecret, hraw, hstr, hbytes⟩ := h ts hts hwithin
      obtain ⟨body, hbody⟩ := Text.asBytes_ok_iff.2 hraw
      obtain ⟨key, hkey⟩ := strEncode_isOk_iff.2 hsecret
      have hexpected : signature p.hmacSha256 x.secret ts body =
          .ok (py "v1=" ++ py (hexDigits (p.hmacSha256 key (message ts body)))) := by
        rw [signature, hkey]
        rfl
      have hgenuine : x.Genuine p ↔ x.signatureText =
          .str (py "v1=" ++ py (hexDigits (p.hmacSha256 key (message ts body)))) := by
        constructor
        · rintro ⟨ts', body', hts', -, hbody', expected, hexpected', htext⟩
          rw [hts] at hts'
          cases hts'
          rw [hbody] at hbody'
          cases hbody'
          rw [hexpected] at hexpected'
          cases hexpected'
          exact htext
        · exact fun htext => ⟨ts, body, hts, hwithin, hbody, _, hexpected, htext⟩
      simp only [if_pos hwithin, hbody, hexpected, bind, Except.bind, hgenuine]
      have hascii := isAscii_expected (p.hmacSha256 key (message ts body))
      cases htext : x.signatureText with
      | str s =>
        simp only [Text.orEmpty, compareDigest, hascii, hstr s htext, Bool.and_self, if_true]
        refine ⟨_, rfl, ?_⟩
        rw [decide_eq_true_eq, Text.str.injEq, eq_comm]
      | bytes b =>
        rw [hbytes b htext]
        simp only [Text.orEmpty, compareDigest, hascii]
        refine ⟨_, rfl, iff_of_false ?_ ?_⟩
        · simp [py]
        · simp
    · refine ⟨false, if_neg hwithin, iff_of_false Bool.false_ne_true ?_⟩
      rintro ⟨ts', body, hts', hwithin', -⟩
      rw [hts] at hts'
      cases hts'
      exact hwithin hwithin'

theorem comparable_of_verified {result : Bool} (h : x.accepted p = .ok result) : x.Comparable p := by
  intro ts hts hwithin
  obtain ⟨body, key, hbody, hkey, hcompare⟩ := accepted_eq_ok hts hwithin h
  obtain ⟨s, htext, hascii, -⟩ := compareDigest_ok hcompare
  refine ⟨strEncode_isOk_iff.1 ⟨key, hkey⟩, Text.asBytes_ok_iff.1 ⟨body, hbody⟩, ?_, ?_⟩
  · intro s' hs'
    rw [hs'] at htext
    obtain rfl : s' = s := Text.str.inj htext
    exact hascii
  · intro b hb
    rw [hb] at htext
    cases b with
    | nil => rfl
    | cons c b => cases htext

/-- What is accepted is the signature of its integer and its body. -/
theorem text_of_accepted {ts : ℤ} {body key : Bytes} (h : x.accepted p = .ok true)
    (hts : p.int x.timestamp = some ts) (hbody : x.rawBody.asBytes = .ok body)
    (hkey : strEncode x.secret = .ok key) :
    x.signatureText = .str (py "v1=" ++ py (hexDigits (p.hmacSha256 key (message ts body)))) := by
  obtain ⟨result, hresult, hgenuine⟩ := verified_of_comparable (comparable_of_verified h)
  obtain rfl := Except.ok.inj (h.symm.trans hresult)
  obtain ⟨ts', body', hts', -, hbody', expected, hexpected, htext⟩ := hgenuine.1 rfl
  obtain rfl := Option.some.inj (hts.symm.trans hts')
  obtain rfl := Except.ok.inj (hbody.symm.trans hbody')
  obtain ⟨key', hkey', rfl⟩ := signature_eq_ok hexpected
  obtain rfl := Except.ok.inj (hkey.symm.trans hkey')
  exact htext

/-! ### What the server sends -/

/-- A consumer of this server: it computes the same HMAC. -/
def consumer (env : HookEnv) (decimal : CodePoint → Option ℕ) (lowerOther : PyStr → PyStr)
    (clock : ℤ) : Consumer where
  hmacSha256 := env.hmacSha256
  decimal := decimal
  lowerOther := lowerOther
  clock := clock

theorem signature_sign (env : HookEnv) (secret : String) (ts : ℕ) (body : Bytes) :
    signature env.hmacSha256 (py secret) ts body = .ok (py (env.sign secret ts body)) := by
  rw [signature, strEncode_py, SecretBox.sign, py_append]
  rfl

theorem strLower_ascii {lowerOther : PyStr → PyStr} {name : String} {lower : PyStr}
    (hascii : isAscii (py name) = true)
    (hlower : ((py name).map fun c => if 65 ≤ c.val ∧ c.val ≤ 90 then
      Fin.ofNat 0x110000 (c.val + 32) else c) = lower) : strLower lowerOther (py name) = lower :=
  (if_pos hascii).trans hlower

/-- The two headers are found under their names in lower case. -/
theorem header_call (p : Consumer) (ts sig ref : String) :
    let headers := [("Content-Type", "application/json"), ("X-TrueFigure-Timestamp", ts),
      ("X-TrueFigure-Signature", sig), ("X-TrueFigure-Delivery", ref)].map fun h => (py h.1, py h.2)
    p.header headers (py "x-truefigure-timestamp") = some (py ts) ∧
      p.header headers (py "x-truefigure-signature") = some (py sig) := by
  have htype : strLower p.lowerOther (py "Content-Type") = py "content-type" :=
    strLower_ascii (by decide) (by decide)
  have hts : strLower p.lowerOther (py "X-TrueFigure-Timestamp") = py "x-truefigure-timestamp" :=
    strLower_ascii (by decide) (by decide)
  have hsig : strLower p.lowerOther (py "X-TrueFigure-Signature") = py "x-truefigure-signature" :=
    strLower_ascii (by decide) (by decide)
  have href : strLower p.lowerOther (py "X-TrueFigure-Delivery") = py "x-truefigure-delivery" :=
    strLower_ascii (by decide) (by decide)
  intro headers
  have hlower : (headers.map fun h => (strLower p.lowerOther h.1, h.2)).reverse =
      [(py "x-truefigure-delivery", py ref), (py "x-truefigure-signature", py sig),
        (py "x-truefigure-timestamp", py ts), (py "content-type", py "application/json")] := by
    simp only [headers, List.map_cons, List.map_nil, htype, hts, hsig, href]
    rfl
  unfold Consumer.header
  rw [hlower]
  exact ⟨rfl, rfl⟩

theorem now_seconds_length {now : ℕ} (h : now ≤ datetimeMax) :
    (py (toString (now / 1000000))).length ≤ 4300 := by
  have hsmall : now / 1000000 < 10 ^ 12 := by
    unfold datetimeMax at h
    omega
  exact (numeral_length_le (by decide) hsmall).trans (by decide)

/-- The server's signature of a clock within the tolerance is accepted. -/
theorem verifySignature_sign (env : HookEnv) (secret : String) (tolerance : Option ℤ) (raw : Bytes)
    (decimal : CodePoint → Option ℕ) (lowerOther : PyStr → PyStr) {ts : ℕ} {clock : ℤ}
    (hts : (py (toString ts)).length ≤ 4300) (hwithin : Within clock ts tolerance) :
    (consumer env decimal lowerOther clock).verifySignature (py secret) (.str (py (toString ts)))
      (.bytes raw) (.str (py (env.sign secret ts raw))) tolerance = .ok true := by
  have hint := intOfStr_numeral decimal hts
  have hsign := signature_sign env secret ts raw
  obtain ⟨key, -, hexpected⟩ := signature_eq_ok hsign
  have hcomparable : (⟨py secret, .str (py (toString ts)), .bytes raw, .str (py (env.sign secret ts
      raw)), tolerance⟩ : Claimed).Comparable (consumer env decimal lowerOther clock) := by
    intro _ _ _
    refine ⟨utf8Encodable_py secret, fun s hs => (by cases hs), fun s hs => ?_, fun b hb => (by cases hb)⟩
    obtain rfl := Text.str.inj hs
    rw [hexpected]
    exact isAscii_expected _
  obtain ⟨result, hresult, hgenuine⟩ := verified_of_comparable hcomparable
  obtain rfl : result = true := hgenuine.2 ⟨ts, raw, hint, hwithin, rfl, _, hsign, rfl⟩
  exact hresult

/-- An attempt for a webhook with the secret is accepted. -/
theorem verify_call {secret : String} {a : Attempt} {decimal : CodePoint → Option ℕ}
    {lowerOther : PyStr → PyStr} {clock : ℤ} {tolerance : Option ℤ}
    (ha : a.secretHash = env.encrypt secret) (hnow : a.now ≤ datetimeMax)
    (hwithin : Within clock (a.now / 1000000 : ℕ) tolerance) :
    ∃ call, a.call env = some call ∧ (consumer env decimal lowerOther clock).verify (py secret)
      (call.headers.map fun h => (py h.1, py h.2)) (.bytes call.body) tolerance = .ok () := by
  have hsecret : env.decrypt a.secretHash = some secret := by rw [ha, env.decrypt_encrypt]
  refine ⟨_, by rw [Attempt.call, hsecret]; rfl, ?_⟩
  obtain ⟨hts, hsig⟩ := header_call (consumer env decimal lowerOther clock)
    (toString (a.now / 1000000)) (env.sign secret (a.now / 1000000)
      (encodeUtf8 (env.dumps a.delivery.payload))) a.delivery.deliveryRef
  have haccepted := verifySignature_sign env secret tolerance
    (encodeUtf8 (env.dumps a.delivery.payload)) decimal lowerOther (now_seconds_length hnow) hwithin
  have hne : py (toString (a.now / 1000000)) ≠ [] := by simp [py, toString]
  obtain ⟨c, digits, hdigits⟩ := List.exists_cons_of_ne_nil hne
  obtain ⟨key, -, hexpected⟩ := signature_eq_ok (signature_sign env secret
    (a.now / 1000000) (encodeUtf8 (env.dumps a.delivery.payload)))
  rw [hexpected, show py "v1=" = chr 'v' :: py "1=" from rfl, List.cons_append] at hsig haccepted
  rw [hdigits] at hts haccepted
  unfold Consumer.verify
  rw [hts, hsig]
  simp only [haccepted]

theorem createWebhook_created {ws : ℕ} {body : WebhookCreate} {ref : String} {t t' : HookTables}
    (h : createWebhook env ws body ref t = .ok (.created ref, t')) :
    ∃ row ∈ t'.webhooks, row.webhookRef = ref ∧ row.secretHash = env.encrypt body.secret := by
  obtain ⟨events, -, ⟨row, -, hreply, -⟩ | ⟨-, -, -, rfl⟩⟩ := createWebhook_ok h
  · cases hreply
  · exact ⟨_, List.mem_append_right _ List.mem_cons_self, rfl, rfl⟩

end Verifier

/-- Both sides agree about signatures, unless a comparison is reached with a secret or a body
that cannot be encoded or with a signature that is no ASCII text. -/
theorem signaturesAgree_iff (env : HookEnv) (decimal : CodePoint → Option ℕ)
    (lowerOther : PyStr → PyStr) (clock : ℤ) (x : Claimed) :
    SignaturesAgree env (consumer env decimal lowerOther clock) x ↔
      x.Comparable (consumer env decimal lowerOther clock) := by
  constructor
  · intro h
    obtain ⟨result, hresult, -⟩ := h.verified
    exact comparable_of_verified hresult
  · intro h
    refine ⟨?_, verified_of_comparable h, ?_⟩
    · intro ws body ref t t' hcreate
      obtain ⟨row, hrow, href, hsecret⟩ := createWebhook_created hcreate
      exact ⟨row, hrow, href, fun a tolerance ha hnow hwithin =>
        verify_call (ha.trans hsecret) hnow hwithin⟩
    · intro y q hq hsecret htext hx hy ts ts' body body' key hts hts' hbody hbody' hkey hcollision
      have hsig := text_of_accepted hx hts hbody hkey
      have hsig' := text_of_accepted hy hts' hbody' (hsecret ▸ hkey)
      rw [htext, hsig, hq] at hsig'
      have hmac := List.append_cancel_left (Text.str.inj hsig')
      exact message_injective (hcollision (hexDigits_injective (py_injective hmac)))

/-- A signature that is no ASCII text is not refused but raises a `TypeError`. -/
theorem signature_not_ascii : ¬ SignaturesAgree sampleHookEnv
    (consumer sampleHookEnv (fun _ => none) id 1700000000)
    ⟨py "whsecret", .str (py "1700000000"), .bytes [], .str (py "v1=é"), some 300⟩ := by
  intro h
  obtain ⟨result, hresult, -⟩ := h.verified
  obtain ⟨body, key, -, -, hcompare⟩ := @accepted_eq_ok _ _ 1700000000 _ (by decide) (by decide)
    hresult
  obtain ⟨s, htext, hascii, -⟩ := compareDigest_ok hcompare
  obtain rfl := Text.str.inj htext
  revert hascii
  decide

end TrueFigure.Sdk
