import Mathlib.Algebra.Group.Nat.Defs
import Mathlib.Data.List.Basic
import TrueFigure.Python.Base64

/-!
# The secret box

At-rest encryption of webhook secrets and the signature the deliveries carry.
-/
namespace TrueFigure.Server

open TrueFigure.Python

abbrev Bytes := List UInt8

/-- `hashlib.sha256` and `hmac` over it, with the process's `TF_SECRET_KEY`. -/
structure SecretBox where
  sha256 : Bytes → Bytes
  hmacSha256 : Bytes → Bytes → Bytes
  secretKey : String
  sha256_length : ∀ data, (sha256 data).length = 32
  hmac_length : ∀ key data, (hmacSha256 key data).length = 32

/-- `s.encode()`. -/
def encodeUtf8 (s : String) : Bytes := s.toUTF8.data.toList

/-- `bytes.decode("utf-8")`; `none` where it raises. -/
def decodeUtf8 (bytes : Bytes) : Option String := String.fromUTF8? ⟨bytes.toArray⟩

theorem decodeUtf8_encodeUtf8 (s : String) : decodeUtf8 (encodeUtf8 s) = some s := by
  simp only [decodeUtf8, encodeUtf8, Array.toArray_toList]
  exact dif_pos s.isValidUTF8

def xorBytes (a b : Bytes) : Bytes := List.zipWith (· ^^^ ·) a b

theorem xorBytes_xorBytes {a b : Bytes} (h : b.length = a.length) :
    xorBytes (xorBytes a b) b = a := by
  induction a generalizing b with
  | nil => rfl
  | cons x a ih =>
    cases b with
    | nil => cases h
    | cons y b =>
      have hxy : x ^^^ y ^^^ y = x := by rw [UInt8.xor_assoc, UInt8.xor_self, UInt8.xor_zero]
      have hrest : xorBytes (xorBytes a b) b = a := ih (by simpa using h)
      simp only [xorBytes, List.zipWith_cons_cons, hxy] at hrest ⊢
      rw [hrest]

/-- `counter.to_bytes(4, "big")`. -/
def bigEndian4 (n : ℕ) : Bytes :=
  [UInt8.ofNat (n / 256 ^ 3), UInt8.ofNat (n / 256 ^ 2), UInt8.ofNat (n / 256), UInt8.ofNat n]

/-- `hexdigest`. -/
def hexDigits (bytes : Bytes) : String :=
  String.ofList (bytes.flatMap fun b =>
    [Nat.digitChar (b.toNat / 16), Nat.digitChar (b.toNat % 16)])

namespace SecretBox

variable (box : SecretBox)

def key : Bytes := box.sha256 (encodeUtf8 box.secretKey)

/-- `_keystream`: as many blocks as cover the length. -/
def keystream (nonce : Bytes) (length : ℕ) : Bytes :=
  ((List.range ((length + 31) / 32)).flatMap fun counter =>
    box.hmacSha256 box.key (nonce ++ bigEndian4 counter)).take length

def encrypt (plaintext : String) : String :=
  let data := encodeUtf8 plaintext
  let nonce := (box.sha256 (data ++ box.key)).take 8
  let ct := xorBytes data (box.keystream nonce data.length)
  "enc1:" ++ String.ofList (urlsafeB64encode (nonce ++ ct))

/-- `decrypt`; `none` where it raises. -/
def decrypt (token : String) : Option String :=
  if "enc1:".toList.isPrefixOf token.toList then do
    let blob ← urlsafeB64decode (token.toList.drop 5)
    let nonce := blob.take 8
    let ct := blob.drop 8
    decodeUtf8 (xorBytes ct (box.keystream nonce ct.length))
  else none

def sign (secret : String) (timestamp : ℕ) (rawBody : Bytes) : String :=
  "v1=" ++ hexDigits (box.hmacSha256 (encodeUtf8 secret)
    (encodeUtf8 (toString timestamp ++ ".") ++ rawBody))

theorem length_keystream (nonce : Bytes) (length : ℕ) :
    (box.keystream nonce length).length = length := by
  have hblocks : ∀ n, ((List.range n).flatMap fun counter =>
      box.hmacSha256 box.key (nonce ++ bigEndian4 counter)).length = n * 32 := by
    intro n
    simp [List.length_flatMap, box.hmac_length]
  rw [keystream, List.length_take, hblocks]
  omega

/-- What is stored gives back the secret. -/
theorem decrypt_encrypt (plaintext : String) :
    box.decrypt (box.encrypt plaintext) = some plaintext := by
  have hnonce : ((box.sha256 (encodeUtf8 plaintext ++ box.key)).take 8).length = 8 := by
    simp [box.sha256_length]
  simp only [encrypt, decrypt, String.toList_append, String.toList_ofList]
  generalize (box.sha256 (encodeUtf8 plaintext ++ box.key)).take 8 = nonce at hnonce ⊢
  have hstart : "enc1:".toList.isPrefixOf ("enc1:".toList ++ urlsafeB64encode (nonce ++
      xorBytes (encodeUtf8 plaintext) (box.keystream nonce (encodeUtf8 plaintext).length))) =
      true := by simp
  rw [if_pos hstart, show 5 = "enc1:".toList.length by decide, List.drop_left,
    urlsafeB64decode_encode]
  simp only [Option.bind_eq_bind, Option.bind_some, List.take_left' hnonce, List.drop_left' hnonce]
  have hlength : (xorBytes (encodeUtf8 plaintext)
      (box.keystream nonce (encodeUtf8 plaintext).length)).length =
      (encodeUtf8 plaintext).length := by
    simp [xorBytes, box.length_keystream]
  rw [hlength, xorBytes_xorBytes (box.length_keystream _ _), decodeUtf8_encodeUtf8]

end SecretBox

end TrueFigure.Server
