import TrueFigure.Python.Lines
import TrueFigure.Server.SecretBox

/-!
# Secrets at rest

`secretbox.py` on every string: the key is whatever `TF_SECRET_KEY` holds, the keystream is a
loop over counted blocks, and encoding may fail. The secret box of the webhooks is what this
comes to where nothing fails.
-/
namespace TrueFigure.Server

open TrueFigure.Python

/-- `s.encode()`, as bytes. -/
def strEncode (s : PyStr) : Except PyErr Bytes := (utf8Encode s).map fun data => data.data.toList

/-- `data.decode("utf-8")`. -/
def bytesDecode (bytes : Bytes) : Except PyErr PyStr := utf8Decode ⟨bytes.toArray⟩

theorem bytesDecode_of_strEncode {s : PyStr} {bytes : Bytes} (h : strEncode s = .ok bytes) :
    bytesDecode bytes = .ok s := by
  unfold strEncode at h
  cases hdata : utf8Encode s with
  | error e =>
    rw [hdata] at h
    cases h
  | ok data =>
    rw [hdata] at h
    cases h
    exact utf8Decode_encode hdata

theorem strEncode_isOk_iff {s : PyStr} : (∃ bytes, strEncode s = .ok bytes) ↔
    utf8Encodable s = true := by
  unfold strEncode utf8Encode
  split_ifs with h
  · exact iff_of_true ⟨_, rfl⟩ h
  · exact iff_of_false (fun ⟨_, hbytes⟩ => by cases hbytes) h

theorem strEncode_py (s : String) : strEncode (py s) = .ok (encodeUtf8 s) := by
  have hchars : (py s).map scalar = s.toList := by
    unfold py
    rw [List.map_map]
    refine (List.map_congr_left fun c _ => ?_).trans (List.map_id s.toList)
    have hlt : c.toNat < 0x110000 := by
      rcases c.valid with hlow | hhigh
      · exact Nat.lt_trans hlow (by decide)
      · exact hhigh.2
    simp only [Function.comp_apply, scalar, Fin.val_ofNat, Nat.mod_eq_of_lt hlt, Char.ofNat_toNat,
      id_eq]
  unfold strEncode utf8Encode
  rw [if_pos (utf8Encodable_py s), hchars, String.ofList_toList]
  rfl

/-- The hash functions and the environment of a process; a byte of the environment that is no
UTF-8 is a lone surrogate in its string. -/
structure SecretProcess where
  sha256 : Bytes → Bytes
  hmacSha256 : Bytes → Bytes → Bytes
  environ : Option PyStr
  sha256_length : ∀ data, (sha256 data).length = 32
  hmac_length : ∀ key data, (hmacSha256 key data).length = 32

/-- `n.to_bytes(4, "big")`. -/
def toBytes4 (n : ℕ) : Except PyErr Bytes :=
  if n < 2 ^ 32 then .ok (bigEndian4 n) else .error .overflowError

/-- `bytes(b ^ k for b, k in zip(data, stream, strict=True))`. -/
def xorStrict (data stream : Bytes) : Except PyErr Bytes :=
  if data.length = stream.length then .ok (xorBytes data stream)
  else .error (.valueError (py "zip() arguments differ in length"))

namespace SecretProcess

variable (p : SecretProcess)

/-- `os.environ.get("TF_SECRET_KEY") or "tf-dev-secret-key"`. -/
def secretKey : PyStr :=
  match p.environ with
  | some (c :: s) => c :: s
  | _ => py "tf-dev-secret-key"

def key : Except PyErr Bytes := (strEncode p.secretKey).map p.sha256

/-- The loop of `_keystream`. -/
def keystreamFrom (nonce : Bytes) (length : ℕ) (out : Bytes) (counter : ℕ) : Except PyErr Bytes :=
  if out.length < length then
    match p.key, toBytes4 counter with
    | .ok key, .ok count =>
      keystreamFrom nonce length (out ++ p.hmacSha256 key (nonce ++ count)) (counter + 1)
    | .error e, _ => .error e
    | _, .error e => .error e
  else .ok (out.take length)
termination_by length - out.length
decreasing_by
  rw [List.length_append, p.hmac_length]
  omega

def keystream (nonce : Bytes) (length : ℕ) : Except PyErr Bytes :=
  p.keystreamFrom nonce length [] 0

def encrypt (plaintext : PyStr) : Except PyErr PyStr := do
  let data ← strEncode plaintext
  let key ← p.key
  let nonce := (p.sha256 (data ++ key)).take 8
  let stream ← p.keystream nonce data.length
  let ct ← xorStrict data stream
  .ok (py "enc1:" ++ b64Text (nonce ++ ct))

/-- `decrypt`. The bytes of a token that are no digits are passed over, so the scan may read
its characters. -/
def decrypt (token : PyStr) : Except PyErr PyStr :=
  if (py "enc1:").isPrefixOf token then do
    let _ ← strEncode (token.drop 5)
    let blob ← b64Scan 0 0 0 (token.drop 5)
    let nonce := blob.take 8
    let ct := blob.drop 8
    let stream ← p.keystream nonce ct.length
    let pt ← xorStrict ct stream
    bytesDecode pt
  else .error (.valueError (py "not an enc1 token"))

/-! ### The keystream -/

variable {p : SecretProcess} {nonce : Bytes} {length : ℕ}

/-- The key as text, where it is text. -/
def box (p : SecretProcess) : SecretBox where
  sha256 := p.sha256
  hmacSha256 := p.hmacSha256
  secretKey := String.ofList (p.secretKey.map scalar)
  sha256_length := p.sha256_length
  hmac_length := p.hmac_length

theorem key_eq (h : utf8Encodable p.secretKey = true) : p.key = .ok p.box.key := by
  unfold key strEncode utf8Encode
  rw [if_pos h]
  rfl

theorem key_isOk_iff : (∃ k, p.key = .ok k) ↔ utf8Encodable p.secretKey = true := by
  rw [← strEncode_isOk_iff, key]
  cases strEncode p.secretKey with
  | error e => exact iff_of_false (fun ⟨_, h⟩ => by cases h) fun ⟨_, h⟩ => by cases h
  | ok bytes => exact iff_of_true ⟨_, rfl⟩ ⟨_, rfl⟩

def block (p : SecretProcess) (nonce : Bytes) (counter : ℕ) : Bytes :=
  p.hmacSha256 p.box.key (nonce ++ bigEndian4 counter)

theorem length_blocks (counters : List ℕ) :
    (counters.flatMap (p.block nonce)).length = counters.length * 32 := by
  simp [List.length_flatMap, block, p.hmac_length]

/-- The loop from block `counter` on, behind the blocks before it. -/
theorem keystreamFrom_eq (hkey : p.key = .ok p.box.key) (hlength : length ≤ 32 * 2 ^ 32)
    {counter : ℕ} (hcounter : counter ≤ (length + 31) / 32) :
    p.keystreamFrom nonce length ((List.range counter).flatMap (p.block nonce)) counter =
      .ok (p.box.keystream nonce length) := by
  have hblocks := @length_blocks p nonce (List.range counter)
  rw [List.length_range] at hblocks
  induction hleft : (length + 31) / 32 - counter generalizing counter with
  | zero =>
    have hlast : counter = (length + 31) / 32 := by omega
    rw [keystreamFrom, hblocks, if_neg (by omega), hlast]
    rfl
  | succ left ih =>
    have hnext : (List.range counter).flatMap (p.block nonce) ++
        p.hmacSha256 p.box.key (nonce ++ bigEndian4 counter) =
          (List.range (counter + 1)).flatMap (p.block nonce) := by
      rw [List.range_succ, List.flatMap_append, List.flatMap_singleton, block]
    have hcount : toBytes4 counter = .ok (bigEndian4 counter) := if_pos (by omega)
    rw [keystreamFrom, hblocks, if_pos (by omega), hkey, hcount]
    dsimp only
    rw [hnext]
    exact ih (by omega) (by rw [length_blocks, List.length_range]) (by omega)

theorem keystream_eq (hkey : p.key = .ok p.box.key) (hlength : length ≤ 32 * 2 ^ 32) :
    p.keystream nonce length = .ok (p.box.keystream nonce length) :=
  keystreamFrom_eq hkey hlength (Nat.zero_le _)

theorem keystream_prefix {n m : ℕ} (hkey : p.key = .ok p.box.key) (hm : m ≤ 32 * 2 ^ 32)
    (hnm : n ≤ m) : ∃ short long, p.keystream nonce n = .ok short ∧
      p.keystream nonce m = .ok long ∧ short.length = n ∧ long.length = m ∧ short <+: long := by
  refine ⟨_, _, keystream_eq hkey (hnm.trans hm), keystream_eq hkey hm,
    p.box.length_keystream _ _, p.box.length_keystream _ _, ?_⟩
  obtain ⟨more, hmore⟩ := Nat.exists_eq_add_of_le (Nat.div_le_div_right (c := 32)
    (Nat.add_le_add_right hnm 31))
  have hcovers : n ≤ ((List.range ((n + 31) / 32)).flatMap (p.block nonce)).length := by
    rw [length_blocks, List.length_range]
    omega
  have hstart := List.take_prefix_take_left (l := (List.range ((m + 31) / 32)).flatMap
    (p.block nonce)) hnm
  rwa [hmore, List.range_add, List.flatMap_append, List.take_append_of_le_length hcovers,
    ← List.flatMap_append, ← List.range_add, ← hmore] at hstart

/-! ### Round trip -/

theorem encrypt_eq (hkey : p.key = .ok p.box.key) {plaintext : PyStr} {data : Bytes}
    (hdata : strEncode plaintext = .ok data) (hlength : data.length ≤ 32 * 2 ^ 32) :
    p.encrypt plaintext = .ok (py "enc1:" ++ b64Text ((p.sha256 (data ++ p.box.key)).take 8 ++
      xorBytes data (p.box.keystream ((p.sha256 (data ++ p.box.key)).take 8) data.length))) := by
  have hsame : data.length = (p.box.keystream ((p.sha256 (data ++ p.box.key)).take 8)
      data.length).length := (p.box.length_keystream _ _).symm
  simp only [encrypt, hdata, hkey, keystream_eq hkey hlength, xorStrict, if_pos hsame, bind,
    Except.bind]

theorem decrypt_token (hkey : p.key = .ok p.box.key) {nonce data : Bytes}
    (hnonce : nonce.length = 8) (hlength : data.length ≤ 32 * 2 ^ 32) :
    p.decrypt (py "enc1:" ++ b64Text (nonce ++ xorBytes data (p.box.keystream nonce data.length))) =
      bytesDecode data := by
  have hct : (xorBytes data (p.box.keystream nonce data.length)).length = data.length := by
    simp [xorBytes, p.box.length_keystream]
  have hprefix : (py "enc1:").isPrefixOf (py "enc1:" ++ b64Text (nonce ++ xorBytes data
      (p.box.keystream nonce data.length))) = true := by simp
  have hascii : utf8Encodable (b64Text (nonce ++ xorBytes data
      (p.box.keystream nonce data.length))) = true := by
    have htext := utf8Encodable_py (String.ofList (urlsafeB64encode (nonce ++ xorBytes data
      (p.box.keystream nonce data.length))))
    rwa [py, String.toList_ofList] at htext
  obtain ⟨bytes, hbytes⟩ := strEncode_isOk_iff.2 hascii
  have hsame : data.length = (p.box.keystream nonce data.length).length :=
    (p.box.length_keystream _ _).symm
  have hdrop : (py "enc1:").length = 5 := by decide
  unfold decrypt
  rw [if_pos hprefix, List.drop_left' hdrop, hbytes, b64Scan_b64Text]
  simp only [bind, Except.bind, List.take_left' hnonce, List.drop_left' hnonce, hct,
    keystream_eq hkey hlength, xorStrict, if_pos hsame,
    xorBytes_xorBytes (p.box.length_keystream nonce data.length)]

section Deterministic

variable {q : SecretProcess} (hhmac : q.hmacSha256 = p.hmacSha256) (hkey : q.key = p.key)
include hhmac hkey

theorem keystreamFrom_congr (nonce : Bytes) (length : ℕ) (out : Bytes) (counter : ℕ) :
    q.keystreamFrom nonce length out counter = p.keystreamFrom nonce length out counter := by
  fun_induction p.keystreamFrom nonce length out counter with
  | case1 out counter hlt key count hk hc ih =>
    rw [keystreamFrom, if_pos hlt, hkey, hk, hc, ← ih, hhmac]
  | case2 out counter hlt e hk =>
    rw [keystreamFrom, if_pos hlt, hkey, hk]
  | case3 out counter hlt e hc hok =>
    rw [keystreamFrom, if_pos hlt, hkey, hc]
    cases hk : p.key with
    | ok key => rfl
    | error e' => exact absurd hk (hok e')
  | case4 out counter hlt => rw [keystreamFrom, if_neg hlt]

theorem encrypt_congr (hsha : q.sha256 = p.sha256) (s : PyStr) : q.encrypt s = p.encrypt s := by
  unfold encrypt keystream
  simp only [keystreamFrom_congr hhmac hkey, hkey, hsha]

end Deterministic

/-- Secrets are stored and come back. -/
structure StoresSecrets (p : SecretProcess) : Prop where
  roundTrip : ∀ s data, strEncode s = .ok data → data.length ≤ 32 * 2 ^ 32 →
    ∃ token, p.encrypt s = .ok token ∧ p.decrypt token = .ok s
  /-- Nothing but the hashes and the key decides a token. -/
  deterministic : ∀ q : SecretProcess, q.sha256 = p.sha256 → q.hmacSha256 = p.hmacSha256 →
    q.secretKey = p.secretKey → ∀ s, q.encrypt s = p.encrypt s
  prefixes : ∀ nonce n m, n ≤ m → m ≤ 32 * 2 ^ 32 → ∃ short long,
    p.keystream nonce n = .ok short ∧ p.keystream nonce m = .ok long ∧ short.length = n ∧
      long.length = m ∧ short <+: long
  refuses : ∀ token, ¬ py "enc1:" <+: token → ∃ message, p.decrypt token = .error (.valueError message)

theorem storesSecrets_iff (p : SecretProcess) :
    p.StoresSecrets ↔ utf8Encodable p.secretKey = true := by
  constructor
  · intro h
    obtain ⟨token, hencrypt, -⟩ := h.roundTrip [] [] rfl (Nat.zero_le _)
    refine key_isOk_iff.1 ?_
    cases hkey : p.key with
    | ok k => exact ⟨k, rfl⟩
    | error e =>
      unfold encrypt at hencrypt
      rw [hkey] at hencrypt
      cases hencrypt
  · intro hencodable
    have hkey := key_eq hencodable
    refine ⟨fun s data hdata hlength => ?_, ?_, fun nonce n m hnm hm => keystream_prefix hkey hm hnm,
      fun token htoken => ?_⟩
    · refine ⟨_, encrypt_eq hkey hdata hlength, ?_⟩
      rw [decrypt_token hkey (by simp [p.sha256_length]) hlength]
      exact bytesDecode_of_strEncode hdata
    · intro q hsha hhmac hsecret s
      exact encrypt_congr hhmac (by rw [key, key, hsecret, hsha]) hsha s
    · refine ⟨py "not an enc1 token", ?_⟩
      rw [decrypt, if_neg (by rwa [List.isPrefixOf_iff_prefix])]

/-- The webhooks' secret box is what the code comes to where it can encode its key. -/
theorem encrypt_box (h : utf8Encodable p.secretKey = true) {plaintext : String}
    (hlength : (encodeUtf8 plaintext).length ≤ 32 * 2 ^ 32) :
    p.encrypt (py plaintext) = .ok (py (p.box.encrypt plaintext)) ∧
      p.decrypt (py (p.box.encrypt plaintext)) = .ok (py plaintext) := by
  have hdata := strEncode_py plaintext
  have htoken : p.encrypt (py plaintext) = .ok (py (p.box.encrypt plaintext)) := by
    rw [encrypt_eq (key_eq h) hdata hlength, SecretBox.encrypt]
    simp only [b64Text, py, String.toList_append, String.toList_ofList, List.map_append]
    rfl
  obtain ⟨token, hencrypt, hdecrypt⟩ := ((storesSecrets_iff p).2 h).roundTrip _ _ hdata hlength
  cases htoken.symm.trans hencrypt
  exact ⟨htoken, hdecrypt⟩

end SecretProcess

/-! ### A key that is no UTF-8 -/

def constantHashes (environ : Option PyStr) : SecretProcess where
  sha256 _ := List.replicate 32 7
  hmacSha256 _ _ := List.replicate 32 9
  environ := environ
  sha256_length _ := List.length_replicate
  hmac_length _ _ := List.length_replicate

/-- The environment holds the byte 0xFF. -/
theorem undecodable_key_raises :
    ¬ (constantHashes (some [0xDCFF])).StoresSecrets ∧
      (constantHashes (some [0xDCFF])).encrypt (py "whsecret") = .error .unicodeEncodeError :=
  ⟨fun h => absurd ((SecretProcess.storesSecrets_iff _).1 h) (by decide), rfl⟩

end TrueFigure.Server
