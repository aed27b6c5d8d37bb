import Mathlib.Data.List.Basic

/-!
# Base64

The standard alphabet with padding, without line breaks.  Three bytes become four digits of six bits;
one or two bytes at the end become two or three digits and the padding character.
-/

namespace Beyond
namespace Base64

/-- The character `=`. -/
def pad : UInt8 := 61

/-- The character of a six-bit digit. -/
def digit (n : Nat) : UInt8 :=
  if n < 26 then UInt8.ofNat (65 + n)
  else if n < 52 then UInt8.ofNat (97 + (n - 26))
  else if n < 62 then UInt8.ofNat (48 + (n - 52))
  else if n = 62 then 43
  else 47

def value (c : UInt8) : Option Nat :=
  if 65 ≤ c.toNat ∧ c.toNat ≤ 90 then some (c.toNat - 65)
  else if 97 ≤ c.toNat ∧ c.toNat ≤ 122 then some (c.toNat - 97 + 26)
  else if 48 ≤ c.toNat ∧ c.toNat ≤ 57 then some (c.toNat - 48 + 52)
  else if c = 43 then some 62
  else if c = 47 then some 63
  else none

def encode : List UInt8 → List UInt8
  | [] => []
  | [a] => [digit (a.toNat / 4), digit (a.toNat % 4 * 16), pad, pad]
  | [a, b] =>
      [digit (a.toNat / 4), digit (a.toNat % 4 * 16 + b.toNat / 16), digit (b.toNat % 16 * 4), pad]
  | a :: b :: c :: rest =>
      digit (a.toNat / 4) :: digit (a.toNat % 4 * 16 + b.toNat / 16) ::
        digit (b.toNat % 16 * 4 + c.toNat / 64) :: digit (c.toNat % 64) :: encode rest

/-- The first of three bytes, from the first two of four digits. -/
def byte₀ (d₀ d₁ : Nat) : UInt8 := UInt8.ofNat (d₀ * 4 + d₁ / 16)

def byte₁ (d₁ d₂ : Nat) : UInt8 := UInt8.ofNat (d₁ % 16 * 16 + d₂ / 4)

def byte₂ (d₂ d₃ : Nat) : UInt8 := UInt8.ofNat (d₂ % 4 * 64 + d₃)

/-- `none` for a text that is not made of whole groups of digits. -/
def decode : List UInt8 → Option (List UInt8)
  | [] => some []
  | c₀ :: c₁ :: c₂ :: c₃ :: rest => do
      let d₀ ← value c₀
      let d₁ ← value c₁
      -- Padding stands only at the end of the text.
      if rest = [] ∧ c₂ = pad ∧ c₃ = pad then return [byte₀ d₀ d₁]
      let d₂ ← value c₂
      if rest = [] ∧ c₃ = pad then return [byte₀ d₀ d₁, byte₁ d₁ d₂]
      let d₃ ← value c₃
      let bytes ← decode rest
      return byte₀ d₀ d₁ :: byte₁ d₁ d₂ :: byte₂ d₂ d₃ :: bytes
  | _ => none

theorem value_digit : ∀ n < 64, value (digit n) = some n := by
  decide

theorem digit_ne_pad : ∀ n < 64, digit n ≠ pad := by
  decide

/-! ## Bytes from their digits -/

theorem byte₀_digits (a : UInt8) (x : Nat) (hx : x < 16) :
    byte₀ (a.toNat / 4) (a.toNat % 4 * 16 + x) = a := by
  have h : a.toNat / 4 * 4 + (a.toNat % 4 * 16 + x) / 16 = a.toNat := by omega
  rw [byte₀, h, UInt8.ofNat_toNat]

theorem byte₁_digits (b : UInt8) (x y : Nat) (hy : y < 4) :
    byte₁ (x * 16 + b.toNat / 16) (b.toNat % 16 * 4 + y) = b := by
  have hb := b.toNat_lt
  have h : (x * 16 + b.toNat / 16) % 16 * 16 + (b.toNat % 16 * 4 + y) / 4 = b.toNat := by omega
  rw [byte₁, h, UInt8.ofNat_toNat]

theorem byte₂_digits (c : UInt8) (x : Nat) : byte₂ (x * 4 + c.toNat / 64) (c.toNat % 64) = c := by
  have hc := c.toNat_lt
  have h : (x * 4 + c.toNat / 64) % 4 * 64 + c.toNat % 64 = c.toNat := by omega
  rw [byte₂, h, UInt8.ofNat_toNat]

theorem decode_encode (bytes : List UInt8) : decode (encode bytes) = some bytes := by
  induction bytes using encode.induct with
  | case1 => rfl
  | case2 a =>
      have ha := a.toNat_lt
      have h₀ := value_digit (a.toNat / 4) (by omega)
      have h₁ := value_digit (a.toNat % 4 * 16) (by omega)
      have hbyte : byte₀ (a.toNat / 4) (a.toNat % 4 * 16) = a := byte₀_digits a 0 (by omega)
      simp [encode, decode, h₀, h₁, hbyte]
  | case3 a b =>
      have ha := a.toNat_lt
      have hb := b.toNat_lt
      have h₀ := value_digit (a.toNat / 4) (by omega)
      have h₁ := value_digit (a.toNat % 4 * 16 + b.toNat / 16) (by omega)
      have h₂ := value_digit (b.toNat % 16 * 4) (by omega)
      have hpad := digit_ne_pad (b.toNat % 16 * 4) (by omega)
      have hbyte₀ := byte₀_digits a (b.toNat / 16) (by omega)
      have hbyte₁ := byte₁_digits b (a.toNat % 4) 0 (by omega)
      rw [Nat.add_zero] at hbyte₁
      simp [encode, decode, h₀, h₁, h₂, hpad, hbyte₀, hbyte₁]
  | case4 a b c rest ih =>
      have ha := a.toNat_lt
      have hb := b.toNat_lt
      have hc := c.toNat_lt
      have h₀ := value_digit (a.toNat / 4) (by omega)
      have h₁ := value_digit (a.toNat % 4 * 16 + b.toNat / 16) (by omega)
      have h₂ := value_digit (b.toNat % 16 * 4 + c.toNat / 64) (by omega)
      have h₃ := value_digit (c.toNat % 64) (by omega)
      have hpad := digit_ne_pad (c.toNat % 64) (by omega)
      have hbyte₀ := byte₀_digits a (b.toNat / 16) (by omega)
      have hbyte₁ := byte₁_digits b (a.toNat % 4) (c.toNat / 64) (by omega)
      have hbyte₂ := byte₂_digits c (b.toNat % 16)
      simp [encode, decode, h₀, h₁, h₂, h₃, hpad, hbyte₀, hbyte₁, hbyte₂, ih]

/-- `Man!` is `TWFuIQ==`. -/
example : encode [77, 97, 110, 33] = [84, 87, 70, 117, 73, 81, 61, 61] := by decide

/-- Four characters for every three bytes that are begun. -/
theorem length_encode (bytes : List UInt8) :
    (encode bytes).length = (bytes.length + 2) / 3 * 4 := by
  induction bytes using encode.induct with
  | case1 => rfl
  | case2 a => simp [encode]
  | case3 a b => simp [encode]
  | case4 a b c rest ih =>
      simp only [encode, List.length_cons, ih]
      omega

end Base64
end Beyond
