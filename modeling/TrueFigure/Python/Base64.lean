import TrueFigure.Python.Values

/-!
# URL-safe Base64

`base64.urlsafe_b64encode`, `base64.urlsafe_b64decode` of what it makes, and the scan of
`binascii.a2b_base64`, which passes over every character that is no digit.
-/
namespace TrueFigure.Python

/-- The characters of the sextets, in order. -/
def base64Alphabet : List Char :=
  "ABCDEFGHIJKLMNOPQRSTUVWXYZabcdefghijklmnopqrstuvwxyz0123456789-_".toList

def sextetChar (n : ℕ) : Char := base64Alphabet.getD n 'A'

def charSextet? (c : Char) : Option ℕ := base64Alphabet.idxOf? c

def urlsafeB64encode : List UInt8 → List Char
  | [] => []
  | [a] =>
    [sextetChar (a.toNat / 4), sextetChar (a.toNat % 4 * 16), '=', '=']
  | [a, b] =>
    [sextetChar (a.toNat / 4), sextetChar (a.toNat % 4 * 16 + b.toNat / 16),
      sextetChar (b.toNat % 16 * 4), '=']
  | a :: b :: c :: rest =>
    sextetChar (a.toNat / 4) :: sextetChar (a.toNat % 4 * 16 + b.toNat / 16) ::
      sextetChar (b.toNat % 16 * 4 + c.toNat / 64) :: sextetChar (c.toNat % 64) ::
        urlsafeB64encode rest

/-- The bytes of four characters. -/
def decodeQuad (c₀ c₁ c₂ c₃ : Char) : Option (List UInt8) := do
  let s₀ ← charSextet? c₀
  let s₁ ← charSextet? c₁
  if c₂ = '=' then some [UInt8.ofNat (s₀ * 4 + s₁ / 16)]
  else
    let s₂ ← charSextet? c₂
    if c₃ = '=' then
      some [UInt8.ofNat (s₀ * 4 + s₁ / 16), UInt8.ofNat (s₁ % 16 * 16 + s₂ / 4)]
    else
      let s₃ ← charSextet? c₃
      some [UInt8.ofNat (s₀ * 4 + s₁ / 16), UInt8.ofNat (s₁ % 16 * 16 + s₂ / 4),
        UInt8.ofNat (s₂ % 4 * 64 + s₃)]

/-- The bytes of an encoding; `none` for text that is none. -/
def urlsafeB64decode : List Char → Option (List UInt8)
  | [] => some []
  | c₀ :: c₁ :: c₂ :: c₃ :: rest => do
    let bytes ← decodeQuad c₀ c₁ c₂ c₃
    let more ← urlsafeB64decode rest
    some (bytes ++ more)
  | _ => none

theorem charSextet_sextetChar {n : ℕ} (h : n < 64) :
    charSextet? (sextetChar n) = some n ∧ sextetChar n ≠ '=' := by
  revert n
  decide

theorem decodeQuad_three (a b c : UInt8) :
    decodeQuad (sextetChar (a.toNat / 4)) (sextetChar (a.toNat % 4 * 16 + b.toNat / 16))
      (sextetChar (b.toNat % 16 * 4 + c.toNat / 64)) (sextetChar (c.toNat % 64)) =
      some [a, b, c] := by
  have ha := a.toNat_lt
  have hb := b.toNat_lt
  have hc := c.toNat_lt
  obtain ⟨h₀, -⟩ := @charSextet_sextetChar (a.toNat / 4) (by omega)
  obtain ⟨h₁, -⟩ := @charSextet_sextetChar (a.toNat % 4 * 16 + b.toNat / 16) (by omega)
  obtain ⟨h₂, hpad₂⟩ := @charSextet_sextetChar (b.toNat % 16 * 4 + c.toNat / 64) (by omega)
  obtain ⟨h₃, hpad₃⟩ := @charSextet_sextetChar (c.toNat % 64) (by omega)
  have hfirst : a.toNat / 4 * 4 + (a.toNat % 4 * 16 + b.toNat / 16) / 16 = a.toNat := by omega
  have hsecond : (a.toNat % 4 * 16 + b.toNat / 16) % 16 * 16 +
      (b.toNat % 16 * 4 + c.toNat / 64) / 4 = b.toNat := by omega
  have hthird : (b.toNat % 16 * 4 + c.toNat / 64) % 4 * 64 + c.toNat % 64 = c.toNat := by omega
  simp only [decodeQuad, h₀, h₁, h₂, h₃, if_neg hpad₂, if_neg hpad₃, Option.bind_eq_bind,
    Option.bind_some, hfirst, hsecond, hthird, UInt8.ofNat_toNat]

theorem decodeQuad_two (a b : UInt8) :
    decodeQuad (sextetChar (a.toNat / 4)) (sextetChar (a.toNat % 4 * 16 + b.toNat / 16))
      (sextetChar (b.toNat % 16 * 4)) '=' = some [a, b] := by
  have ha := a.toNat_lt
  have hb := b.toNat_lt
  obtain ⟨h₀, -⟩ := @charSextet_sextetChar (a.toNat / 4) (by omega)
  obtain ⟨h₁, -⟩ := @charSextet_sextetChar (a.toNat % 4 * 16 + b.toNat / 16) (by omega)
  obtain ⟨h₂, hpad₂⟩ := @charSextet_sextetChar (b.toNat % 16 * 4) (by omega)
  have hfirst : a.toNat / 4 * 4 + (a.toNat % 4 * 16 + b.toNat / 16) / 16 = a.toNat := by omega
  have hsecond : (a.toNat % 4 * 16 + b.toNat / 16) % 16 * 16 + b.toNat % 16 * 4 / 4 =
      b.toNat := by omega
  simp only [decodeQuad, h₀, h₁, h₂, if_neg hpad₂, if_true, Option.bind_eq_bind,
    Option.bind_some, hfirst, hsecond, UInt8.ofNat_toNat]

theorem decodeQuad_one (a : UInt8) :
    decodeQuad (sextetChar (a.toNat / 4)) (sextetChar (a.toNat % 4 * 16)) '=' '=' = some [a] := by
  have ha := a.toNat_lt
  obtain ⟨h₀, -⟩ := @charSextet_sextetChar (a.toNat / 4) (by omega)
  obtain ⟨h₁, -⟩ := @charSextet_sextetChar (a.toNat % 4 * 16) (by omega)
  have hfirst : a.toNat / 4 * 4 + a.toNat % 4 * 16 / 16 = a.toNat := by omega
  simp only [decodeQuad, h₀, h₁, if_true, Option.bind_eq_bind, Option.bind_some, hfirst,
    UInt8.ofNat_toNat]

theorem urlsafeB64decode_encode (bytes : List UInt8) :
    urlsafeB64decode (urlsafeB64encode bytes) = some bytes := by
  fun_induction urlsafeB64encode bytes with
  | case1 => rfl
  | case2 a => simp [urlsafeB64decode, decodeQuad_one]
  | case3 a b => simp [urlsafeB64decode, decodeQuad_two]
  | case4 a b c rest ih => simp [urlsafeB64decode, decodeQuad_three, ih]

/-! ### Text that need not be an encoding -/

/-- The value of a digit; `urlsafe_b64decode` leaves the digits `+` and `/` of the other
alphabet as they are. -/
def sextetOf (c : CodePoint) : Option ℕ :=
  if c = 0x2B then some 62
  else if c = 0x2F then some 63
  else ((base64Alphabet.map fun d => Fin.ofNat 0x110000 d.toNat) : PyStr).idxOf? c

/-- The loop of `a2b_base64`: the place in the group of four, the bits left over and the
padding seen since the last digit. -/
def b64Scan : (quad left pads : ℕ) → PyStr → Except PyErr (List UInt8)
  | 0, _, _, [] => .ok []
  | _ + 1, _, _, [] => .error (.valueError (py "Incorrect padding"))
  | quad, left, pads, c :: s =>
    if c = 0x3D then
      if 2 ≤ quad ∧ 4 ≤ quad + (pads + 1) then .ok []
      else b64Scan quad left (if 2 ≤ quad then pads + 1 else pads) s
    else
      match sextetOf c with
      | none => b64Scan quad left pads s
      | some n =>
        match quad with
        | 0 => b64Scan 1 n 0 s
        | 1 => (b64Scan 2 (n % 16) 0 s).map (UInt8.ofNat (left * 4 + n / 16) :: ·)
        | 2 => (b64Scan 3 (n % 4) 0 s).map (UInt8.ofNat (left * 16 + n / 4) :: ·)
        | _ => (b64Scan 0 0 0 s).map (UInt8.ofNat (left * 64 + n) :: ·)

def b64Text (bytes : List UInt8) : PyStr :=
  (urlsafeB64encode bytes).map fun c => Fin.ofNat 0x110000 c.toNat

def sextetCode (n : ℕ) : CodePoint := Fin.ofNat 0x110000 (sextetChar n).toNat

theorem sextetOf_sextetCode {n : ℕ} (h : n < 64) :
    sextetOf (sextetCode n) = some n ∧ sextetCode n ≠ 0x3D := by
  revert n
  decide +kernel

section Digits

variable {n : ℕ} (h : n < 64) (left pads : ℕ) (s : PyStr)
include h

theorem b64Scan_first : b64Scan 0 left pads (sextetCode n :: s) = b64Scan 1 n 0 s := by
  obtain ⟨hsextet, hpad⟩ := sextetOf_sextetCode h
  rewrite [b64Scan, if_neg hpad, hsextet]
  rfl

theorem b64Scan_second : b64Scan 1 left pads (sextetCode n :: s) =
    (b64Scan 2 (n % 16) 0 s).map (UInt8.ofNat (left * 4 + n / 16) :: ·) := by
  obtain ⟨hsextet, hpad⟩ := sextetOf_sextetCode h
  rewrite [b64Scan, if_neg hpad, hsextet]
  rfl

theorem b64Scan_third : b64Scan 2 left pads (sextetCode n :: s) =
    (b64Scan 3 (n % 4) 0 s).map (UInt8.ofNat (left * 16 + n / 4) :: ·) := by
  obtain ⟨hsextet, hpad⟩ := sextetOf_sextetCode h
  rewrite [b64Scan, if_neg hpad, hsextet]
  rfl

theorem b64Scan_fourth : b64Scan 3 left pads (sextetCode n :: s) =
    (b64Scan 0 0 0 s).map (UInt8.ofNat (left * 64 + n) :: ·) := by
  obtain ⟨hsextet, hpad⟩ := sextetOf_sextetCode h
  rewrite [b64Scan, if_neg hpad, hsextet]
  rfl

end Digits

theorem b64Scan_b64Text (bytes : List UInt8) : b64Scan 0 0 0 (b64Text bytes) = .ok bytes := by
  unfold b64Text
  fun_induction urlsafeB64encode bytes with
  | case1 => rfl
  | case2 a =>
    have ha := a.toNat_lt
    have hfirst : a.toNat / 4 * 4 + a.toNat % 4 * 16 / 16 = a.toNat := by omega
    change b64Scan 0 0 0 (sextetCode (a.toNat / 4) :: sextetCode (a.toNat % 4 * 16) :: [0x3D, 0x3D]) = _
    rw [b64Scan_first (by omega), b64Scan_second (by omega), hfirst, UInt8.ofNat_toNat]
    rfl
  | case3 a b =>
    have ha := a.toNat_lt
    have hb := b.toNat_lt
    have hfirst : a.toNat / 4 * 4 + (a.toNat % 4 * 16 + b.toNat / 16) / 16 = a.toNat := by omega
    have hsecond : (a.toNat % 4 * 16 + b.toNat / 16) % 16 * 16 + b.toNat % 16 * 4 / 4 =
        b.toNat := by omega
    change b64Scan 0 0 0 (sextetCode (a.toNat / 4) :: sextetCode (a.toNat % 4 * 16 + b.toNat / 16) ::
      sextetCode (b.toNat % 16 * 4) :: [0x3D]) = _
    rw [b64Scan_first (by omega), b64Scan_second (by omega), b64Scan_third (by omega), hfirst,
      hsecond, UInt8.ofNat_toNat, UInt8.ofNat_toNat]
    rfl
  | case4 a b c rest ih =>
    have ha := a.toNat_lt
    have hb := b.toNat_lt
    have hc := c.toNat_lt
    have hfirst : a.toNat / 4 * 4 + (a.toNat % 4 * 16 + b.toNat / 16) / 16 = a.toNat := by omega
    have hsecond : (a.toNat % 4 * 16 + b.toNat / 16) % 16 * 16 +
        (b.toNat % 16 * 4 + c.toNat / 64) / 4 = b.toNat := by omega
    have hthird : (b.toNat % 16 * 4 + c.toNat / 64) % 4 * 64 + c.toNat % 64 = c.toNat := by omega
    rw [List.map_cons, List.map_cons, List.map_cons, List.map_cons]
    change b64Scan 0 0 0 (sextetCode _ :: sextetCode _ :: sextetCode _ :: sextetCode _ :: _) = _
    rw [b64Scan_first (by omega), b64Scan_second (by omega), b64Scan_third (by omega),
      b64Scan_fourth (by omega), ih, hfirst, hsecond, hthird]
    simp only [UInt8.ofNat_toNat]
    rfl

end TrueFigure.Python
